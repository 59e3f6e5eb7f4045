import Zboss.PendingBuffer

/-!
# `pending_buf` belongs to one operation

Each step either leaves `pending_buf` and the operations which wait as they
are, or sets `pending_buf`, with or without an operation which waits for it
from then on.
-/

namespace Zboss

open Option List MacCtx TransitionSystem

namespace PendingBufRun

variable {run next : PendingBufRun} {event : PendingBufEvent}

def after (run : PendingBufRun) (event : PendingBufEvent) (ctx : PendingCtx) :
    PendingBufRun where
  ctx := ctx
  scanning := (run.started event ctx).getD run.scanning
  touched := run.touched ++ run.touches event

theorem step_eq_some : run.step event = some next ↔
      run.Arrives event ∧ ∃ ctx, run.ctx.step event = some ctx ∧
        next = run.after event ctx := by
  rw [step]
  split
  case isTrue harrives =>
    rw [and_iff_right harrives]
    constructor
    · intro hstep
      obtain ⟨ctx, hctx, heq⟩ := bind_eq_some_iff.mp hstep
      exact ⟨ctx, hctx, (some.inj heq).symm⟩
    · rintro ⟨ctx, hctx, rfl⟩
      rw [hctx]
      rfl
  case isFalse harrives =>
    exact iff_of_false (fun hnone => nomatch hnone) (fun h => harrives h.1)

structure Kept (run next : PendingBufRun) : Prop where
  waiting : next.waiting.Sublist run.waiting
  pendingBuf : next.waiting ≠ [] → next.ctx.pendingBuf = run.ctx.pendingBuf
  nodup : run.held.Nodup → next.held.Nodup

/-- `pending_buf` is set by a step after which nothing waits for it. -/
structure Replaced (run next : PendingBufRun) (buf : Option ℕ) : Prop where
  waiting : next.waiting = run.waiting
  pendingBuf : next.ctx.pendingBuf = buf
  foreign : ∀ own ∈ run.waiting, buf ≠ some own
  nodup : next.held.Nodup

structure Started (run next : PendingBufRun) (buf : ℕ) : Prop where
  length : next.waiting.length = run.waiting.length + 1
  waiting : run.waiting = [] → next.waiting = [buf]
  pendingBuf : next.ctx.pendingBuf = some buf
  nodup : run.waiting = [] → next.held.Nodup

def Touches (touches : List (ℕ × Option ℕ)) : Prop :=
  ∀ touch ∈ touches, touch.2 = some touch.1

theorem touched_after_iff {ctx : PendingCtx} (howned : run.Owned) :
    (∀ touch ∈ (run.after event ctx).touched, touch.2 = some touch.1) ↔
      Touches (run.touches event) := by
  rw [after]
  dsimp only
  simp only [mem_append]
  constructor
  · intro hall touch hmem
    exact hall touch (.inr hmem)
  · rintro hall touch (hmem | hmem)
    · exact howned.touched touch hmem
    · exact hall touch hmem

theorem Kept.owned_iff {ctx : PendingCtx} (hkept : run.Kept (run.after event ctx))
    (howned : run.Owned) :
    (run.after event ctx).Owned ↔ Touches (run.touches event) := by
  rw [← touched_after_iff howned]
  constructor
  · exact Owned.touched
  · intro htouched
    refine ⟨hkept.waiting.length_le.trans howned.single, ?_, htouched⟩
    intro buf hmem
    rw [hkept.pendingBuf (ne_nil_of_mem hmem)]
    exact howned.pendingBuf buf (hkept.waiting.subset hmem)

theorem Replaced.owned_iff {ctx : PendingCtx} {buf : Option ℕ}
    (hreplaced : run.Replaced (run.after event ctx) buf)
    (howned : run.Owned) (htouches : run.touches event = []) :
    (run.after event ctx).Owned ↔ run.waiting = [] := by
  constructor
  · intro hafter
    refine eq_nil_iff_forall_not_mem.mpr fun own hmem => ?_
    have hsame := hafter.pendingBuf own (hreplaced.waiting ▸ hmem)
    rw [hreplaced.pendingBuf] at hsame
    exact hreplaced.foreign own hmem hsame
  · intro hnone
    have hnext : (run.after event ctx).waiting = [] := hreplaced.waiting.trans hnone
    refine ⟨?_, ?_, (touched_after_iff howned).mpr ?_⟩
    · rw [hnext]
      exact Nat.zero_le 1
    · intro own hmem
      rw [hnext] at hmem
      contradiction
    · rw [htouches]
      exact fun _ hmem => nomatch hmem

theorem Started.owned_iff {ctx : PendingCtx} {buf : ℕ}
    (hstarted : run.Started (run.after event ctx) buf)
    (howned : run.Owned) (htouches : run.touches event = []) :
    (run.after event ctx).Owned ↔ run.waiting = [] := by
  constructor
  · intro hafter
    have hsingle := hafter.single
    rw [hstarted.length] at hsingle
    exact length_eq_zero_iff.mp (by omega)
  · intro hnone
    have hnext := hstarted.waiting hnone
    refine ⟨?_, ?_, (touched_after_iff howned).mpr ?_⟩
    · rw [hnext]
      exact le_refl 1
    · intro own hmem
      rw [hnext] at hmem
      obtain rfl := mem_singleton.mp hmem
      exact hstarted.pendingBuf
    · rw [htouches]
      exact fun _ hmem => nomatch hmem

theorem waiting_eq_nil_iff : run.waiting = [] ↔ run.Idle := by
  rw [waiting, append_eq_nil_iff, replicate_eq_nil_iff, Option.toList_eq_nil_iff, Idle]
  refine and_congr_left fun _ => ?_
  rw [← Bool.not_eq_true, ScanCtx.running_iff_due, Nat.not_lt, Nat.le_zero]

section Events

variable {ctx : PendingCtx}

theorem held_eq (run : PendingBufRun) : run.held = run.ctx.queued ++ run.waiting := rfl

variable {param : ℕ} {room : Bool}

theorem not_mem_waiting (harrives : param ∉ run.held) :
    param ∉ run.waiting :=
  fun hmem => harrives (mem_append_right _ hmem)

theorem waiting_after (hstarted : run.started event ctx = none)
    (hdue : ctx.due = run.ctx.due)
    (hexchange : ctx.exchange = run.ctx.exchange) :
    (run.after event ctx).waiting = run.waiting := by
  rw [waiting, waiting, after]
  dsimp only
  rw [hstarted, hdue, hexchange]
  rfl

theorem nodup_of_queued (hwaiting : (run.after event ctx).waiting = run.waiting)
    (hqueued : ctx.queued.Sublist run.ctx.queued) (hnodup : run.held.Nodup) :
    (run.after event ctx).held.Nodup := by
  have hsub : (run.after event ctx).held.Sublist run.held := by
    rw [held_eq, held_eq, hwaiting]
    exact hqueued.append_right _
  exact hsub.nodup hnodup

theorem nodup_of_arrives (harrives : param ∉ run.held)
    (hwaiting : (run.after event ctx).waiting = run.waiting)
    (hqueued : ctx.queued.Perm (param :: run.ctx.queued))
    (hnodup : run.held.Nodup) : (run.after event ctx).held.Nodup := by
  have hperm : (run.after event ctx).held.Perm (param :: run.held) := by
    rw [held_eq, held_eq, hwaiting]
    exact hqueued.append_right _
  exact hperm.nodup_iff.mpr (nodup_cons.mpr ⟨harrives, hnodup⟩)

theorem kept_of_same (hstarted : run.started event ctx = none)
    (hdue : ctx.due = run.ctx.due)
    (hexchange : ctx.exchange = run.ctx.exchange)
    (hpending : ctx.pendingBuf = run.ctx.pendingBuf)
    (hqueued : ctx.queued.Sublist run.ctx.queued) :
    run.Kept (run.after event ctx) := by
  have hwaiting := waiting_after hstarted hdue hexchange
  refine ⟨?_, fun _ => hpending, nodup_of_queued hwaiting hqueued⟩
  rw [hwaiting]

theorem replaced_of_arrives (harrives : param ∉ run.held) (hnodup : run.held.Nodup)
    (hstarted : run.started event ctx = none)
    (hdue : ctx.due = run.ctx.due)
    (hexchange : ctx.exchange = run.ctx.exchange)
    (hpending : ctx.pendingBuf = some param ∨ ctx.pendingBuf = none)
    (hqueued : ctx.queued = run.ctx.queued) :
    run.Replaced (run.after event ctx) ctx.pendingBuf := by
  have hwaiting := waiting_after hstarted hdue hexchange
  refine ⟨hwaiting, rfl, fun own hmem => ?_,
    nodup_of_queued hwaiting (by rw [hqueued]) hnodup⟩
  rintro hsame
  obtain hsome | hnone := hpending
  · obtain rfl := some.inj (hsome.symm.trans hsame)
    exact not_mem_waiting harrives hmem
  · exact nomatch hnone.symm.trans hsame

/-- The condition on an event decides whether `pending_buf` is owned after
it. -/
def Settled (run : PendingBufRun) (event : PendingBufEvent) (ctx : PendingCtx) : Prop :=
  ((run.after event ctx).Owned ↔ run.Allows event) ∧
    (run.Allows event → (run.after event ctx).held.Nodup)

theorem settled_of_kept (howned : run.Owned) (hnodup : run.held.Nodup)
    (hkept : run.Kept (run.after event ctx))
    (hallows : run.Allows event ↔ Touches (run.touches event)) :
    run.Settled event ctx :=
  ⟨(hkept.owned_iff howned).trans hallows.symm, fun _ => hkept.nodup hnodup⟩

theorem settled_of_replaced {buf : Option ℕ} (howned : run.Owned)
    (hreplaced : run.Replaced (run.after event ctx) buf)
    (htouches : run.touches event = [])
    (hallows : run.Allows event ↔ run.Idle) : run.Settled event ctx := by
  refine ⟨?_, fun _ => hreplaced.nodup⟩
  rw [hreplaced.owned_iff howned htouches, hallows, waiting_eq_nil_iff]

theorem settled_of_started {buf : ℕ} (howned : run.Owned)
    (hstarted : run.Started (run.after event ctx) buf)
    (htouches : run.touches event = [])
    (hallows : run.Allows event ↔ run.Idle) : run.Settled event ctx := by
  rw [Settled, hstarted.owned_iff howned htouches, hallows, waiting_eq_nil_iff]
  refine ⟨Iff.rfl, fun hidle => hstarted.nodup ?_⟩
  exact waiting_eq_nil_iff.mpr hidle

theorem touches_nil : Touches [] := fun _ hmem => nomatch hmem

theorem scan_step_eq_some
    {scan : ScanEvent} (hctx : run.ctx.step (.scan scan) = some ctx) :
    ∃ next confirms, run.ctx.toScanCtx.step scan = some (next, confirms) ∧
      ctx = { run.ctx with toScanCtx := next } := by
  rw [PendingCtx.step] at hctx
  obtain ⟨⟨next, confirms⟩, hscan, heq⟩ := bind_eq_some_iff.mp hctx
  exact ⟨next, confirms, hscan, (some.inj heq).symm⟩

theorem touches_singleton {own : ℕ} {found : Option ℕ} :
    Touches [(own, found)] ↔ found = some own := by
  rw [Touches]
  simp only [mem_singleton, forall_eq]

theorem settled_request {params : ScanParams} (howned : run.Owned)
    (hnodup : run.held.Nodup) (harrives : param ∉ run.held)
    (hctx : run.ctx.step (.scan (.request param params room)) = some ctx) :
    run.Settled (.scan (.request param params room)) ctx := by
  obtain ⟨scan, confirms, hscan, rfl⟩ := scan_step_eq_some hctx
  obtain rfl : (run.ctx.toScanCtx.request param params room).1 = scan :=
    (some_pair_inj hscan).1
  cases haccepts : run.ctx.accepts params with
  | true =>
    obtain ⟨haccepted, -⟩ := @ScanCtx.request_of_accepts run.ctx.toScanCtx
      param params room haccepts
    have hwaiting := @waiting_after run (.scan (.request param params room))
      { run.ctx with
        toScanCtx := (run.ctx.toScanCtx.request param params room).1 }
      rfl haccepted.due_eq rfl
    refine settled_of_replaced howned ⟨hwaiting, haccepted.pendingBuf, ?_, ?_⟩ ?_ ?_
    · rintro own hmem hsame
      obtain rfl := some.inj hsame
      exact not_mem_waiting harrives hmem
    · cases room with
      | false =>
        refine nodup_of_queued hwaiting ?_ hnodup
        rw [PendingCtx.queued, PendingCtx.queued]
        dsimp only
        rw [haccepted.cbQ]
        exact List.Sublist.refl _
      | true =>
        refine nodup_of_arrives harrives hwaiting ?_ hnodup
        rw [PendingCtx.queued, PendingCtx.queued]
        dsimp only
        rw [haccepted.cbQ, if_pos rfl, filterMap_append, append_assoc]
        exact perm_middle
    · rw [touches, if_pos haccepts]
    · rw [Allows, if_pos haccepts]
  | false =>
    have hrefused := @ScanCtx.request_of_not_accepts run.ctx.toScanCtx
      param params room haccepts
    refine settled_of_kept howned hnodup ?_ ?_
    · rw [hrefused]
      exact kept_of_same rfl rfl rfl rfl (List.Sublist.refl _)
    · rw [Allows, touches, haccepts, if_neg Bool.false_ne_true,
        if_neg Bool.false_ne_true, touches_singleton]

theorem queued_scheduleTxCb (call : MacTxCall) (ctx : PendingCtx) :
    (ctx.put (ctx.toMacCtx.scheduleTxCb call) ctx.pendingBuf).queued = ctx.queued ∨
      (ctx.put (ctx.toMacCtx.scheduleTxCb call) ctx.pendingBuf).queued =
        ctx.queued ++ [call.param] := by
  rw [scheduleTxCb]
  split
  · refine .inr ?_
    rw [PendingCtx.queued, PendingCtx.queued, PendingCtx.put]
    dsimp only
    rw [map_append, append_assoc]
    rfl
  · exact .inl rfl

section

variable (howned : run.Owned) (hnodup : run.held.Nodup)

include howned hnodup

theorem settled_scheduleTxCb {call : MacTxCall} (harrives : call.param ∉ run.held)
    (hstarted : run.started event
      (run.ctx.put (run.ctx.toMacCtx.scheduleTxCb call) run.ctx.pendingBuf) = none)
    (htouches : run.touches event = []) (hallows : run.Allows event) :
    run.Settled event
      (run.ctx.put (run.ctx.toMacCtx.scheduleTxCb call) run.ctx.pendingBuf) := by
  have hexchange : PendingCtx.exchange
      (run.ctx.put (run.ctx.toMacCtx.scheduleTxCb call) run.ctx.pendingBuf) =
        run.ctx.exchange := by
    rw [scheduleTxCb]
    split
    · rfl
    · rfl
  have hwaiting := waiting_after hstarted rfl hexchange
  refine settled_of_kept howned hnodup ⟨?_, fun _ => rfl, fun hnodup => ?_⟩ ?_
  · rw [hwaiting]
  · obtain hsame | happend := queued_scheduleTxCb call run.ctx
    · exact nodup_of_queued hwaiting (by rw [hsame]) hnodup
    · refine nodup_of_arrives harrives hwaiting ?_ hnodup
      rw [happend]
      exact perm_append_singleton ..
  · rw [htouches]
    exact iff_of_true hallows touches_nil

theorem settled_setPendingBuf (harrives : param ∉ run.held)
    (hstarted : run.started event (run.ctx.setPendingBuf param) = none)
    (htouches : run.touches event = [])
    (hallows : run.Allows event ↔ run.Idle) :
    run.Settled event (run.ctx.setPendingBuf param) :=
  settled_of_replaced howned
    (replaced_of_arrives harrives hnodup hstarted rfl rfl (.inl rfl) rfl)
    htouches hallows

theorem settled_mlmeAssociateResponse
    {device : IeeeAddr} {joinedPro : Bool} (harrives : param ∉ run.held) :
    run.Settled (.mlmeAssociateResponse param device joinedPro)
      (run.ctx.mlmeAssociateResponse param device joinedPro).1 := by
  rw [PendingCtx.mlmeAssociateResponse]
  cases joinedPro with
  | true =>
    refine settled_of_kept howned hnodup
      (kept_of_same rfl rfl rfl rfl (List.Sublist.refl _)) ?_
    exact iff_of_true (fun hfalse => nomatch hfalse) touches_nil
  | false =>
    have hallows : run.Allows (.mlmeAssociateResponse param device false) ↔ run.Idle := by
      rw [Allows, forall_prop_of_true rfl]
    rw [if_neg Bool.false_ne_true, associateResponse, putDataToPendingQueue]
    cases freeSlot { run.ctx.toMacCtx with macStatus := .success } with
    | some i =>
      refine settled_of_replaced howned
        (replaced_of_arrives harrives hnodup rfl rfl rfl (.inl rfl) rfl) rfl
        hallows
    | none =>
      exact settled_of_replaced howned
        (replaced_of_arrives harrives hnodup rfl rfl rfl (.inr rfl) rfl) rfl
        hallows

end

theorem scanning_mem (hpos : 0 < run.ctx.due) : run.scanning ∈ run.waiting :=
  mem_append_left _ (mem_replicate.mpr ⟨hpos.ne', rfl⟩)

section

variable (howned : run.Owned)

include howned

theorem settled_scanStep {scan : ScanEvent} {before next : ScanCtx} {buf : ℕ}
    {confirms : List ScanConfirm}
    (hnodup : run.held.Nodup)
    (hrunning : run.ctx.running = true) (hdue : before.due = 0)
    (hpending : before.pendingBuf = run.ctx.pendingBuf)
    (hcalls : before.cbQ.filterMap ScanCall.request =
      run.ctx.cbQ.filterMap ScanCall.request)
    (hstepped : before.Stepped buf room next confirms)
    (hstarted : run.started (.scan scan) { run.ctx with toScanCtx := next } = none)
    (htouches : run.touches (.scan scan) = [(run.scanning, run.ctx.pendingBuf)])
    (hallows : run.Allows (.scan scan)) :
    run.Settled (.scan scan) { run.ctx with toScanCtx := next } := by
  have hpos := ScanCtx.running_iff_due.mp hrunning
  have hless : next.due ≤ run.ctx.due := (hstepped.due_le hdue).trans hpos
  have hwaiting : (run.after (.scan scan)
      { run.ctx with toScanCtx := next }).waiting.Sublist run.waiting := by
    rw [waiting, waiting, after]
    dsimp only
    rw [hstarted]
    exact (replicate_sublist_replicate _ |>.mpr hless).append_right _
  refine settled_of_kept howned hnodup ⟨hwaiting, fun _ => ?_, ?_⟩ ?_
  · exact hstepped.pendingBuf.trans hpending
  · intro hnodup
    have hqueued : (run.after (.scan scan)
        { run.ctx with toScanCtx := next }).ctx.queued = run.ctx.queued := by
      rw [PendingCtx.queued, PendingCtx.queued, after]
      dsimp only
      rw [hstepped.cbQ, hcalls]
    have hsub : (run.after (.scan scan)
        { run.ctx with toScanCtx := next }).held.Sublist run.held := by
      rw [held_eq, held_eq, hqueued]
      exact hwaiting.append_left _
    exact hsub.nodup hnodup
  · rw [htouches, touches_singleton]
    exact iff_of_true hallows (howned.pendingBuf _ (scanning_mem hpos))

theorem due_le_one : run.ctx.due ≤ 1 := by
  have hlength := howned.single
  rw [waiting, length_append, length_replicate] at hlength
  omega

theorem settled_alarm (hnodup : run.held.Nodup)
    (hctx : run.ctx.step (.scan (.alarm room)) = some ctx) :
    run.Settled (.scan (.alarm room)) ctx := by
  obtain ⟨next, confirms, hscan, rfl⟩ := scan_step_eq_some hctx
  have hsingle := due_le_one howned
  rw [ScanCtx.step, ScanCtx.alarm] at hscan
  split at hscan
  case isTrue halarm =>
    obtain ⟨hrunning, hdue⟩ := ScanCtx.due_alarm hsingle halarm
    obtain ⟨buf, hstepped⟩ := ScanCtx.stepped_of_zbMlmeScanStep hscan
    exact settled_scanStep howned hnodup hrunning hdue rfl rfl hstepped rfl rfl trivial
  case isFalse => contradiction

theorem settled_handler {rest : List ScanCall} {next : ScanCtx} (hnodup : run.held.Nodup)
    (hcbQ : run.ctx.cbQ = .handleScanRequest param :: rest)
    (hhandled : ScanCtx.Handled { run.ctx.toScanCtx with cbQ := rest } param room next) :
    run.Settled (.scan (.callback room)) { run.ctx with toScanCtx := next } := by
  have htouches : run.touches (.scan (.callback room)) = [] := by rw [touches, hcbQ]
  have hallows : run.Allows (.scan (.callback room)) ↔ run.Idle := by
    rw [Allows, hcbQ]
    simp
  have hqueued : run.ctx.queued = param :: (rest.filterMap ScanCall.request ++
        run.ctx.macTxQ.map MacTxCall.param) := by
    rw [PendingCtx.queued, hcbQ]
    rfl
  have hparam : param ∉ run.waiting := by
    rw [held_eq, hqueued, cons_append, nodup_cons] at hnodup
    exact fun hmem => hnodup.1 (mem_append_right _ hmem)
  have hnext : (run.after (.scan (.callback room))
      { run.ctx with toScanCtx := next }).ctx.queued =
        rest.filterMap ScanCall.request ++ run.ctx.macTxQ.map MacTxCall.param := by
    rw [PendingCtx.queued, after]
    dsimp only
    rw [hhandled.requests]
  have hsame : ScanCtx.due { run.ctx.toScanCtx with cbQ := rest } = run.ctx.due := by
    rw [ScanCtx.due, ScanCtx.due, hcbQ, count_cons_of_ne (by simp)]
  have hdue := hhandled.due
  rw [hsame] at hdue
  split at hdue
  case isTrue =>
    have hstarted : run.started (.scan (.callback room))
        { run.ctx with toScanCtx := next } = some param := by
      simp only [started, hcbQ]
      exact if_pos (hdue ▸ Nat.lt_succ_self _)
    have hwaiting : (run.after (.scan (.callback room))
        { run.ctx with toScanCtx := next }).waiting =
          List.replicate (run.ctx.due + 1) param ++ run.ctx.exchange.toList := by
      rw [waiting, after]
      dsimp only
      rw [hstarted, hdue]
      rfl
    have hfirst (hnone : run.waiting = []) : (run.after (.scan (.callback room))
          { run.ctx with toScanCtx := next }).waiting = [param] := by
      rw [waiting, append_eq_nil_iff, replicate_eq_nil_iff] at hnone
      rw [hwaiting, hnone.1, hnone.2]
      rfl
    refine settled_of_started howned ⟨?_, hfirst, hhandled.pendingBuf, ?_⟩ htouches hallows
    · rw [hwaiting, waiting, length_append, length_append,
        length_replicate, length_replicate, Nat.add_right_comm]
    · intro hnone
      rw [held_eq, hnext, hfirst hnone]
      rw [held_eq, hqueued, hnone, append_nil] at hnodup
      exact (perm_append_singleton ..).nodup_iff.mpr hnodup
  case isFalse =>
    have hstarted : run.started (.scan (.callback room))
        { run.ctx with toScanCtx := next } = none := by
      simp only [started, hcbQ]
      exact if_neg (hdue ▸ Nat.lt_irrefl _)
    have hwaiting := waiting_after hstarted hdue rfl
    refine settled_of_replaced howned
      ⟨hwaiting, hhandled.pendingBuf, ?_, ?_⟩ htouches hallows
    · rintro own hmem hsame
      obtain rfl := some.inj hsame
      exact hparam hmem
    · refine nodup_of_queued hwaiting ?_ hnodup
      rw [← hnext] at hqueued
      rw [hqueued]
      exact sublist_cons_self ..

theorem settled_callback (hnodup : run.held.Nodup)
    (hctx : run.ctx.step (.scan (.callback room)) = some ctx) :
    run.Settled (.scan (.callback room)) ctx := by
  obtain ⟨next, confirms, hscan, rfl⟩ := scan_step_eq_some hctx
  have hsingle := due_le_one howned
  rw [ScanCtx.step, ScanCtx.callback] at hscan
  split at hscan
  case h_1 => contradiction
  case h_2 param rest hcbQ =>
    obtain ⟨rfl, -⟩ := some_pair_inj hscan
    exact settled_handler howned hnodup hcbQ
      (ScanCtx.handled_zbHandleScanRequest _ param room)
  case h_3 rest hcbQ =>
    obtain ⟨hrunning, hdue⟩ := ScanCtx.due_callback hsingle hcbQ
    obtain ⟨buf, hstepped⟩ := ScanCtx.stepped_of_zbMlmeScanStep hscan
    refine settled_scanStep howned hnodup hrunning hdue rfl ?_ hstepped ?_ ?_ ?_
    · rw [hcbQ]
      rfl
    · simp only [started, hcbQ]
    · rw [touches, hcbQ]
    · intro call hmem hne
      rw [hcbQ, List.head?_cons] at hmem
      exact absurd (some.inj hmem).symm hne

end

/-! ## Transmissions -/

theorem acceptDataRequestCmd_txWaitCb_cases
    {mac : MacCtx} {param : ℕ} {source : MacAddr} {secured : Bool}
    (hidle : mac.txWaitCb = none) :
    (mac.acceptDataRequestCmd param source secured).1.txWaitCb = none ∨
      ∃ i frame, (mac.acceptDataRequestCmd param source secured).1.txWaitCb =
        some (.handleDataRequestCmdContinue param i frame) := by
  rw [acceptDataRequestCmd]
  dsimp only
  split
  · exact .inl hidle
  · split
    · exact .inl hidle
    · exact .inr ⟨_, _, rfl⟩

theorem acceptDataRequestCmd_macTxQ
    (mac : MacCtx) (param : ℕ) (source : MacAddr) (secured : Bool) :
    (mac.acceptDataRequestCmd param source secured).1.macTxQ = mac.macTxQ := by
  rw [acceptDataRequestCmd]
  dsimp only
  split
  · rfl
  · split
    · rfl
    · rfl

theorem handleMcpsDataReq_txWaitCb {mac next : MacCtx} {req : McpsDataReq} {secured : Bool}
    {outputs : List MacOutput} (hidle : mac.txWaitCb = none)
    (hhandle : mac.handleMcpsDataReq param req secured = some (next, outputs)) :
    next.macTxQ = mac.macTxQ ∧ (next.txWaitCb = none ∨
        next.txWaitCb = some (.handleMcpsDataReqContinue param)) := by
  obtain ⟨⟨filled, ok⟩, hfill, heq⟩ := bind_eq_some_iff.mp hhandle
  have hfilled : filled.macTxQ = mac.macTxQ ∧ filled.txWaitCb = none := by
    rw [mcpsDataRequestFillHdr] at hfill
    split at hfill
    · rw [putDataToPendingQueue] at hfill
      cases hfree : freeSlot { mac with macStatus := .success } with
      | some i =>
        rw [hfree] at hfill
        obtain ⟨rfl, -⟩ := some_pair_inj hfill
        exact ⟨rfl, hidle⟩
      | none =>
        rw [hfree] at hfill
        obtain ⟨queued, hqueued, heq⟩ := bind_eq_some_iff.mp hfill
        obtain ⟨rfl, -⟩ := some_pair_inj heq
        rw [putRequestToQueue] at hqueued
        split at hqueued
        · obtain rfl := some.inj hqueued
          exact ⟨rfl, hidle⟩
        · contradiction
    · obtain ⟨rfl, -⟩ := some_pair_inj hfill
      exact ⟨rfl, hidle⟩
  dsimp only at heq
  split at heq
  · obtain ⟨rfl, -⟩ := some_pair_inj heq
    exact ⟨hfilled.1, .inr rfl⟩
  · obtain ⟨rfl, -⟩ := some_pair_inj heq
    exact ⟨hfilled.1, .inl hfilled.2⟩

theorem exchange_of_none (hwait : run.ctx.txWaitCb = none) : run.ctx.exchange = none := by
  rw [PendingCtx.exchange, hwait]

theorem settled_idle {secured : Bool} {radio : RadioStatus} (howned : run.Owned)
    (hnodup : run.held.Nodup)
    (htouches : run.touches (.mainLoop secured radio) = [])
    (hallows : run.Allows (.mainLoop secured radio)) :
    run.Settled (.mainLoop secured radio) run.ctx := by
  refine settled_of_kept howned hnodup
    (kept_of_same rfl rfl rfl rfl (List.Sublist.refl _)) ?_
  rw [htouches]
  exact iff_of_true hallows touches_nil

theorem mainLoop_continue {secured : Bool} {radio : RadioStatus} {callback : TxWaitCb}
    {outputs : List MacOutput} (hwait : run.ctx.txWaitCb = some callback)
    (hcnt : run.ctx.txCnt = true)
    (hloop : run.ctx.mainLoop secured radio = some (ctx, outputs)) :
    ∃ mac : MacCtx, ctx = run.ctx.put mac none ∧ mac.txWaitCb = none ∧
      mac.macTxQ = run.ctx.macTxQ := by
  rw [PendingCtx.mainLoop, hwait] at hloop
  dsimp only at hloop
  rw [if_pos hcnt] at hloop
  cases callback with
  | handleMcpsDataReqContinue param =>
    obtain ⟨status, hcontinue⟩ := handleMcpsDataReqContinue_eq
      { run.ctx.toMacCtx with txCnt := false, txWaitCb := none } param radio
    dsimp only at hloop
    rw [hcontinue] at hloop
    obtain ⟨rfl, -⟩ := some_pair_inj hloop
    exact ⟨_, rfl, rfl, rfl⟩
  | handleDataRequestCmdContinue param i frame =>
    dsimp only at hloop
    unfold PendingCtx.handleDataRequestCmdContinue at hloop
    split at hloop
    · obtain ⟨⟨mac, sent⟩, hmac, heq⟩ := bind_eq_some_iff.mp hloop
      obtain ⟨rfl, -⟩ := some_pair_inj heq
      obtain ⟨pending, status, -, -, rfl, -⟩ := handleDataRequestCmdContinue_eq_some hmac
      exact ⟨_, rfl, rfl, rfl⟩
    · obtain ⟨status, ok, hcheck⟩ := checkCmdTxStatus_eq
        { run.ctx.toMacCtx with txCnt := false, txWaitCb := none } radio
      obtain ⟨pending, -, heq⟩ := bind_eq_some_iff.mp hloop
      obtain ⟨rfl, -⟩ := some_pair_inj heq
      refine ⟨setSlot (checkCmdTxStatus
        { run.ctx.toMacCtx with txCnt := false, txWaitCb := none } radio).1 i
        none, rfl, ?_⟩
      rw [hcheck]
      exact ⟨rfl, rfl⟩
    · contradiction

theorem settled_continue {secured : Bool} {radio : RadioStatus} {callback : TxWaitCb}
    (howned : run.Owned) (hnodup : run.held.Nodup)
    (hwait : run.ctx.txWaitCb = some callback)
    (hctx : run.ctx.step (.mainLoop secured radio) = some ctx) :
    run.Settled (.mainLoop secured radio) ctx := by
  obtain ⟨⟨next, outputs⟩, hloop, rfl⟩ := map_eq_some_iff.mp hctx
  cases hcnt : run.ctx.txCnt with
  | false =>
    rw [PendingCtx.mainLoop, hwait] at hloop
    dsimp only at hloop
    rw [hcnt, if_neg Bool.false_ne_true] at hloop
    obtain ⟨rfl, -⟩ := some_pair_inj hloop
    refine settled_idle howned hnodup ?_ ?_
    · rw [touches, hcnt]
      rfl
    · rw [Allows, hwait, hcnt]
      cases callback with
      | handleMcpsDataReqContinue param => exact fun hfalse => nomatch hfalse
      | handleDataRequestCmdContinue param i frame => trivial
  | true =>
    obtain ⟨mac, rfl, hdone, hqueue⟩ := mainLoop_continue hwait hcnt hloop
    have hnone : (run.ctx.put mac none).exchange = none := by
      rw [PendingCtx.exchange, PendingCtx.put, hdone]
    have hqueued : (run.ctx.put mac none).queued = run.ctx.queued := by
      rw [PendingCtx.queued, PendingCtx.queued, PendingCtx.put, hqueue]
    cases callback with
    | handleMcpsDataReqContinue param =>
      have hexchange : run.ctx.exchange = none := by rw [PendingCtx.exchange, hwait]
      have hwaiting := @waiting_after run (.mainLoop secured radio)
        (run.ctx.put mac none) rfl rfl (hnone.trans hexchange.symm)
      refine settled_of_replaced howned ⟨hwaiting, rfl, ?_, ?_⟩ ?_ ?_
      · exact fun own _ hsame => nomatch hsame
      · exact nodup_of_queued hwaiting (by rw [hqueued]) hnodup
      · rw [touches, hexchange, hcnt]
        rfl
      · rw [Allows, hwait, Idle, hexchange, hcnt]
        simp
    | handleDataRequestCmdContinue param i frame =>
      have hexchange : run.ctx.exchange = some param := by rw [PendingCtx.exchange, hwait]
      have hmem : param ∈ run.waiting := by
        rw [waiting, hexchange]
        exact mem_append_right _ (mem_singleton_self _)
      have hdue : run.ctx.due = 0 := by
        have hlength := howned.single
        rw [waiting, hexchange, length_append, length_replicate] at hlength
        simpa using hlength
      have hwaiting : (run.after (.mainLoop secured radio)
          (run.ctx.put mac none)).waiting = [] := by
        rw [waiting, after]
        dsimp only
        rw [hnone]
        exact (append_nil _).trans (congrArg (List.replicate · _) hdue)
      refine settled_of_kept howned hnodup ⟨?_, ?_, fun hnodup => ?_⟩ ?_
      · rw [hwaiting]
        exact nil_sublist _
      · exact fun hne => absurd hwaiting hne
      · have hsame : (run.after (.mainLoop secured radio)
            (run.ctx.put mac none)).held = run.ctx.queued := by
          rw [held_eq, hwaiting, append_nil]
          exact hqueued
        rw [hsame]
        exact (nodup_append.mp hnodup).1
      · rw [Allows, hwait, touches, hcnt, hexchange, if_pos rfl]
        refine iff_of_true trivial (touches_singleton.mpr ?_)
        exact howned.pendingBuf param hmem

section Dequeue

variable {secured : Bool} {radio : RadioStatus} {call : MacTxCall}
  {rest : List MacTxCall} {mac : MacCtx}

theorem touches_mainLoop (hexchange : run.ctx.exchange = none) :
    run.touches (.mainLoop secured radio) = [] := by
  rw [touches, hexchange]
  split
  · rfl
  · rfl

theorem allows_mainLoop_iff
    (hwait : run.ctx.txWaitCb = none) (hqueue : run.ctx.macTxQ = call :: rest) :
    run.Allows (.mainLoop secured radio) ↔ run.Idle := by
  rw [Allows, hwait, Idle, exchange_of_none hwait, hqueue]
  simp

theorem queued_of_macTxQ (hqueue : run.ctx.macTxQ = call :: rest) :
    run.ctx.queued = run.ctx.cbQ.filterMap ScanCall.request ++
      call.param :: rest.map MacTxCall.param := by
  rw [PendingCtx.queued, hqueue]
  rfl

theorem queued_put_sublist {buf : Option ℕ} (hqueue : run.ctx.macTxQ = call :: rest)
    (hrest : mac.macTxQ = rest) :
    (run.ctx.put mac buf).queued.Sublist run.ctx.queued := by
  rw [queued_of_macTxQ hqueue, PendingCtx.queued, PendingCtx.put]
  dsimp only
  rw [hrest]
  exact (sublist_cons_self ..).append_left _

section

variable (howned : run.Owned) (hnodup : run.held.Nodup) (hwait : run.ctx.txWaitCb = none)

include howned hnodup hwait

theorem settled_dequeued {buf : Option ℕ} (hqueue : run.ctx.macTxQ = call :: rest)
    (hrest : mac.macTxQ = rest) (hnone : (run.ctx.put mac buf).exchange = none)
    (hbuf : buf = some call.param ∨ buf = none) :
    run.Settled (.mainLoop secured radio) (run.ctx.put mac buf) := by
  have hexchange := exchange_of_none hwait
  have hwaiting := @waiting_after run (.mainLoop secured radio)
    (run.ctx.put mac buf) rfl rfl (hnone.trans hexchange.symm)
  refine settled_of_replaced howned ⟨hwaiting, rfl, ?_,
      nodup_of_queued hwaiting (queued_put_sublist hqueue hrest) hnodup⟩
    (touches_mainLoop hexchange) (allows_mainLoop_iff hwait hqueue)
  rintro own hmem rfl
  obtain hsame | hsame := hbuf
  · obtain rfl := some.inj hsame
    rw [held_eq, queued_of_macTxQ hqueue] at hnodup
    have hdisjoint := (nodup_append.mp hnodup).2.2
    refine hdisjoint call.param ?_ call.param hmem rfl
    exact mem_append_right _ mem_cons_self
  · contradiction

theorem settled_polled {i : ℕ} {frame : MacFrame} (hqueue : run.ctx.macTxQ = call :: rest)
    (hrest : mac.macTxQ = rest)
    (hcallback : mac.txWaitCb = some (.handleDataRequestCmdContinue call.param i frame)) :
    run.Settled (.mainLoop secured radio) (run.ctx.put mac (some call.param)) := by
  have hexchange := exchange_of_none hwait
  have hsome : (run.ctx.put mac (some call.param)).exchange =
      some call.param := by
    rw [PendingCtx.exchange, PendingCtx.put, hcallback]
  have hwaiting : (run.after (.mainLoop secured radio)
      (run.ctx.put mac (some call.param))).waiting = run.waiting ++ [call.param] := by
    rw [waiting, waiting, hexchange, after]
    dsimp only
    rw [hsome]
    exact congrArg (· ++ [call.param]) (append_nil _).symm
  refine settled_of_started howned ⟨?_, fun hnone => ?_, rfl, fun hnone => ?_⟩
    (touches_mainLoop hexchange) (allows_mainLoop_iff hwait hqueue)
  · rw [hwaiting, length_append]
    rfl
  · rw [hwaiting, hnone]
    rfl
  · have hperm : ((run.ctx.put mac (some call.param)).queued ++
        [call.param]).Perm run.ctx.queued := by
      rw [queued_of_macTxQ hqueue, PendingCtx.queued, PendingCtx.put]
      dsimp only
      rw [hrest, append_assoc]
      exact (perm_append_singleton ..).append_left _
    rw [held_eq, hwaiting, hnone, nil_append]
    rw [held_eq, hnone, append_nil] at hnodup
    exact hperm.nodup_iff.mpr hnodup

theorem settled_dequeue (hctx : run.ctx.step (.mainLoop secured radio) = some ctx) :
    run.Settled (.mainLoop secured radio) ctx := by
  obtain ⟨⟨next, outputs⟩, hloop, rfl⟩ := map_eq_some_iff.mp hctx
  rw [PendingCtx.mainLoop, hwait] at hloop
  dsimp only at hloop
  cases hqueue : run.ctx.macTxQ with
  | nil =>
    rw [hqueue] at hloop
    obtain ⟨rfl, -⟩ := some_pair_inj hloop
    refine settled_idle howned hnodup (touches_mainLoop (exchange_of_none hwait)) ?_
    rw [Allows, hwait, hqueue]
    exact absurd rfl
  | cons call rest =>
    have hstill :
        txWaitCb { run.ctx.toMacCtx with macTxQ := rest } = none :=
      hwait
    rw [hqueue] at hloop
    cases call with
    | handleMcpsDataReq param req =>
      obtain ⟨⟨mac, sent⟩, hmac, heq⟩ := bind_eq_some_iff.mp hloop
      obtain ⟨rfl, -⟩ := some_pair_inj heq
      obtain ⟨hrest, hcallback⟩ := handleMcpsDataReq_txWaitCb hstill hmac
      refine settled_dequeued howned hnodup hwait hqueue hrest ?_ (.inl rfl)
      rw [PendingCtx.exchange, PendingCtx.put]
      obtain hcallback | hcallback := hcallback
      · rw [hcallback]
      · rw [hcallback]
    | acceptDataRequestCmd param source =>
      have hrest := acceptDataRequestCmd_macTxQ
        { run.ctx.toMacCtx with macTxQ := rest } param source secured
      have hcallback := @acceptDataRequestCmd_txWaitCb_cases
        { run.ctx.toMacCtx with macTxQ := rest } param source secured hstill
      dsimp only at hloop
      generalize acceptDataRequestCmd
        { run.ctx.toMacCtx with macTxQ := rest } param source secured =
          found at hloop hrest hcallback
      obtain ⟨mac, sent⟩ := found
      obtain ⟨rfl, -⟩ := some_pair_inj hloop
      obtain hcallback | ⟨i, frame, hcallback⟩ := hcallback
      · rw [hcallback]
        refine settled_dequeued howned hnodup hwait hqueue hrest ?_ (.inr rfl)
        rw [PendingCtx.exchange, PendingCtx.put, hcallback]
      · rw [hcallback]
        exact settled_polled howned hnodup hwait hqueue hrest hcallback

end

end Dequeue

theorem settled_of_same (howned : run.Owned) (hnodup : run.held.Nodup)
    (hstarted : run.started event ctx = none)
    (hdue : ctx.due = run.ctx.due)
    (hexchange : ctx.exchange = run.ctx.exchange)
    (hpending : ctx.pendingBuf = run.ctx.pendingBuf)
    (hqueued : ctx.queued = run.ctx.queued)
    (htouches : run.touches event = []) (hallows : run.Allows event) :
    run.Settled event ctx := by
  refine settled_of_kept howned hnodup
    (kept_of_same hstarted hdue hexchange hpending (by rw [hqueued])) ?_
  rw [htouches]
  exact iff_of_true hallows touches_nil

theorem settled_step (howned : run.Owned) (hnodup : run.held.Nodup)
    (harrives : run.Arrives event) (hctx : run.ctx.step event = some ctx) :
    run.Settled event ctx := by
  cases event with
  | scan scan =>
    cases scan with
    | request param params room => exact settled_request howned hnodup harrives hctx
    | callback room => exact settled_callback howned hnodup hctx
    | alarm room => exact settled_alarm howned hnodup hctx
    | beacon =>
      obtain ⟨next, confirms, hscan, rfl⟩ := scan_step_eq_some hctx
      obtain ⟨rfl, -⟩ := some_pair_inj hscan
      rw [ScanCtx.beacon]
      split
      · exact settled_of_same howned hnodup rfl rfl rfl rfl rfl rfl trivial
      · exact settled_of_same howned hnodup rfl rfl rfl rfl rfl rfl trivial
    | realignment =>
      obtain ⟨next, confirms, hscan, rfl⟩ := scan_step_eq_some hctx
      obtain ⟨scan, hrealigned, heq⟩ := map_eq_some_iff.mp hscan
      obtain ⟨rfl, -⟩ := Prod.mk.inj heq
      unfold ScanCtx.realignment at hrealigned
      split at hrealigned
      · obtain ⟨buf, -, heq⟩ := bind_eq_some_iff.mp hrealigned
        obtain rfl := some.inj heq
        exact settled_of_same howned hnodup rfl rfl rfl rfl rfl rfl trivial
      · obtain rfl := some.inj hrealigned
        exact settled_of_same howned hnodup rfl rfl rfl rfl rfl rfl trivial
  | mcpsDataRequest param req =>
    obtain rfl := some.inj hctx
    exact settled_scheduleTxCb howned hnodup harrives rfl rfl trivial
  | dataRequestCmd param source =>
    obtain rfl := some.inj hctx
    exact settled_scheduleTxCb howned hnodup harrives rfl rfl trivial
  | acceptAssRequestCmd param =>
    obtain rfl := some.inj hctx
    exact settled_setPendingBuf howned hnodup harrives rfl rfl Iff.rfl
  | mlmeAssociateResponse param device joinedPro =>
    obtain rfl := some.inj hctx
    exact settled_mlmeAssociateResponse howned hnodup harrives
  | handleDataFrame param =>
    obtain rfl := some.inj hctx
    exact settled_setPendingBuf howned hnodup harrives rfl rfl Iff.rfl
  | transmitted =>
    obtain rfl := some.inj hctx
    exact settled_of_same howned hnodup rfl rfl rfl rfl rfl rfl trivial
  | mainLoop secured radio =>
    cases hwait : run.ctx.txWaitCb with
    | none => exact settled_dequeue howned hnodup hwait hctx
    | some callback => exact settled_continue howned hnodup hwait hctx
  | pendingDataTimeout slot =>
    rw [PendingCtx.step] at hctx
    obtain ⟨⟨mac, outputs⟩, hmac, heq⟩ := bind_eq_some_iff.mp hctx
    obtain rfl := some.inj heq
    obtain ⟨pending, -, heq⟩ := bind_eq_some_iff.mp hmac
    obtain ⟨rfl, -⟩ := some_pair_inj heq
    exact settled_of_same howned hnodup rfl rfl rfl rfl rfl rfl trivial

end Events

def start : PendingBufRun where
  ctx := ⟨⟨[], fun _ => none, [], none, false, .success⟩, ScanCtx.start⟩
  scanning := 0
  touched := []

theorem owned_start : start.Owned :=
  ⟨Nat.zero_le 1, fun _ hmem => (nomatch hmem), fun _ hmem => nomatch hmem⟩

theorem owned_step_iff (howned : run.Owned) (hnodup : run.held.Nodup) :
    (∀ next, run.step event = some next → next.Owned) ↔ run.Meets event := by
  constructor
  · intro hall hreturns
    obtain ⟨next, hstep⟩ := ne_none_iff_exists'.mp hreturns
    have hnext := hall next hstep
    obtain ⟨harrives, ctx, hctx, rfl⟩ := step_eq_some.mp hstep
    exact (settled_step howned hnodup harrives hctx).1.mp hnext
  · intro hmeets next hstep
    have hallows := hmeets (hstep ▸ some_ne_none next)
    obtain ⟨harrives, ctx, hctx, rfl⟩ := step_eq_some.mp hstep
    exact (settled_step howned hnodup harrives hctx).1.mpr hallows

theorem nodup_step
    (howned : run.Owned) (hnodup : run.held.Nodup) (hmeets : run.Meets event)
    (hstep : run.step event = some next) : next.held.Nodup := by
  have hallows := hmeets (hstep ▸ some_ne_none next)
  obtain ⟨harrives, ctx, hctx, rfl⟩ := step_eq_some.mp hstep
  exact (settled_step howned hnodup harrives hctx).2 hallows

/-- `pending_buf` belongs to one operation in exactly the runs in which it is
set only while no scan is between two steps and no exchange waits for its
transmission, and in which a refused scan request is its owner. -/
theorem everyState_singleOwner_iff (events : List PendingBufEvent) :
    EveryState step Owned start events ↔ AlongRun step Meets start events := by
  refine @everyState_iff_alongRun _ _ step Meets Owned
    (fun run => run.held.Nodup) ?_ ?_ start events owned_start nodup_nil
  · intro run event howned hnodup
    exact owned_step_iff howned hnodup
  · intro run event next howned hnodup hmeets hstep
    exact nodup_step howned hnodup hmeets hstep

/-- A data frame comes while the scan of the buffer 1 waits on its last
channel; the scan is then confirmed with the buffer of the frame. -/
theorem not_everyState_owned_dataFrame : ¬ EveryState step Owned start
      [.scan (.request 1 ⟨.active, 3, {11}⟩ true), .scan (.callback true),
        .scan (.callback true), .handleDataFrame 2, .scan (.alarm true)] := by
  intro hevery
  have hlast : (TransitionSystem.run step start
      [.scan (.request 1 ⟨.active, 3, {11}⟩ true), .scan (.callback true),
        .scan (.callback true), .handleDataFrame 2, .scan (.alarm true)]).map
        (fun last => last.touched) = some [(1, some 1), (1, some 2)] := by
    decide +kernel
  obtain ⟨last, hrun, htouched⟩ := map_eq_some_iff.mp hlast
  have hown := (hevery.last hrun).touched (1, some 2) (by
    rw [htouched]
    exact mem_of_mem_tail (mem_singleton_self _))
  contradiction

end PendingBufRun

end Zboss
