import Zboss.IndirectTransmission

/-!
# Frames for a polling device

The frame which is sent for a poll is one for the device, and its pending bit
says whether more wait. Frames go out by slot.
-/

namespace Zboss

open Function Option TransitionSystem

namespace IndirectRun

variable {run next : IndirectRun}

structure Delivers (run : IndirectRun) (source : MacAddr) (i : ℕ) (framePending : Bool) :
    Prop where
  addressed : run.ctx.WaitsFor source i
  lowest : ∀ j, run.ctx.WaitsFor source j → i ≤ j
  framePending_iff : framePending = true ↔ ∃ j, j ≠ i ∧ run.ctx.WaitsFor source j

def QueuedFirst (run : IndirectRun) (source : MacAddr) (i : ℕ) : Prop :=
  ∀ j, run.ctx.WaitsFor source j → run.arrivals i ≤ run.arrivals j

def OnPoll (condition : IndirectRun → MacAddr → ℕ → Bool → Prop) (run : IndirectRun) :
    IndirectEvent → Prop
  | .dataRequestCmd _ source secured =>
      ∀ i framePending, run.ctx.sentIndirectly source secured = some (i, framePending) →
          condition run source i framePending
  | _ => True

def InOrder (run : IndirectRun) : Prop :=
  ∀ source i j, i < j → run.ctx.WaitsFor source i →
    run.ctx.WaitsFor source j → run.arrivals i < run.arrivals j

def PutsAbove (run : IndirectRun) : IndirectEvent → Prop
  | .put pending _ =>
      ∀ i ∈ run.ctx.freeSlot, ∀ source, pending.isFor source = true →
        ∀ j, run.ctx.WaitsFor source j → j < i
  | _ => True

def Numbered (run : IndirectRun) : Prop :=
  ∀ i, i < macPendingQueueSize → run.ctx.pendingDataQueue i ≠ none →
    run.arrivals i < run.requests

theorem delivers_of_sentIndirectly {source : MacAddr} {secured framePending : Bool} {i : ℕ}
    (hsent : run.ctx.sentIndirectly source secured = some (i, framePending)) :
    run.Delivers source i framePending := by
  obtain ⟨hfound, rfl⟩ := MacCtx.sentIndirectly_eq_some hsent
  obtain ⟨-, hwaits, hlowest⟩ := MacCtx.checkPendingDataFrom_eq_some hfound
  refine ⟨hwaits, fun j => hlowest j (Nat.zero_le j), ?_⟩
  constructor
  · intro hsome
    obtain ⟨j, hj⟩ := isSome_iff_exists.mp hsome
    obtain ⟨hle, hjwaits, -⟩ := MacCtx.checkPendingDataFrom_eq_some hj
    exact ⟨j, by omega, hjwaits⟩
  · rintro ⟨j, hne, hjwaits⟩
    have hle := hlowest j (Nat.zero_le j) hjwaits
    by_contra hnone
    rw [Option.not_isSome_iff_eq_none, MacCtx.checkPendingDataFrom_eq_none] at hnone
    exact hnone j (by omega) hjwaits

theorem InOrder.queuedFirst {source : MacAddr} {framePending : Bool} {i : ℕ}
    (horder : run.InOrder) (hdelivers : run.Delivers source i framePending) :
    run.QueuedFirst source i := by
  intro j hwaits
  obtain rfl | hlt := Nat.eq_or_lt_of_le (hdelivers.lowest j hwaits)
  · exact Nat.le_refl _
  · exact Nat.le_of_lt (horder source i j hlt hdelivers.addressed hwaits)

theorem step_of_not_put
    {event : IndirectEvent} (hevent : ∀ pending room, event ≠ .put pending room)
    (hstep : run.step event = some next) :
    next.arrivals = run.arrivals ∧ next.requests = run.requests ∧
      ∀ i, next.ctx.pendingDataQueue i ≠ none →
        next.ctx.pendingDataQueue i = run.ctx.pendingDataQueue i := by
  have hclear : ∀ {i after}, run.ctx.Released i after →
      ∀ j, after.pendingDataQueue j ≠ none →
        after.pendingDataQueue j = run.ctx.pendingDataQueue j := by
    intro i after hreleased j hsome
    rw [hreleased.queue] at hsome ⊢
    by_cases hij : j = i
    · subst hij
      rw [update_self] at hsome
      contradiction
    · rw [update_of_ne hij]
  cases event with
  | put pending room => exact absurd rfl (hevent pending room)
  | dataRequestCmd param source secured =>
    rw [step] at hstep
    split at hstep
    case isTrue =>
      obtain rfl := some.inj hstep
      refine ⟨rfl, rfl, fun i _ => ?_⟩
      exact congrFun (MacCtx.acceptDataRequestCmd_pendingDataQueue ..) i
    case isFalse => contradiction
  | dataRequestCmdContinue radio =>
    obtain ⟨after, hafter, heq⟩ := bind_eq_some_iff.mp hstep
    obtain rfl := some.inj heq
    obtain ⟨-, i, -, -, hreleased, -⟩ :=
      IndirectCtx.handleDataRequestCmdContinue_eq_some hafter
    exact ⟨rfl, rfl, hclear hreleased⟩
  | pendingDataTimeout i =>
    obtain ⟨after, hafter, heq⟩ := bind_eq_some_iff.mp hstep
    obtain rfl := some.inj heq
    obtain ⟨-, hreleased, -⟩ := IndirectCtx.pendingDataTimeout_eq_some hafter
    exact ⟨rfl, rfl, hclear hreleased⟩

theorem step_put_some {pending : PendingData} {room : Bool} {i : ℕ}
    (hfree : run.ctx.freeSlot = some i)
    (hstep : run.step (.put pending room) = some next) :
    next.ctx.pendingDataQueue = update run.ctx.pendingDataQueue i (some pending) ∧
      next.arrivals = update run.arrivals i run.requests ∧
      next.requests = run.requests + 1 := by
  obtain rfl := some.inj hstep
  rw [IndirectCtx.putDataToPendingQueue_of_some hfree, hfree]
  exact ⟨rfl, rfl, rfl⟩

theorem step_put_none {pending : PendingData} {room : Bool}
    (hfree : run.ctx.freeSlot = none)
    (hstep : run.step (.put pending room) = some next) :
    next.ctx.pendingDataQueue = run.ctx.pendingDataQueue ∧
      next.arrivals = run.arrivals ∧ next.requests = run.requests + 1 := by
  obtain rfl := some.inj hstep
  rw [IndirectCtx.putDataToPendingQueue_of_none hfree, hfree]
  exact ⟨rfl, rfl, rfl⟩

theorem numbered_step {event : IndirectEvent} (hnumbered : run.Numbered)
    (hstep : run.step event = some next) : next.Numbered := by
  intro i hi hsome
  by_cases hput : ∃ pending room, event = .put pending room
  · obtain ⟨pending, room, rfl⟩ := hput
    cases hfree : run.ctx.freeSlot with
    | none =>
      obtain ⟨hqueue, harrivals, hrequests⟩ := step_put_none hfree hstep
      rw [hqueue] at hsome
      rw [harrivals, hrequests]
      exact Nat.lt_succ_of_lt (hnumbered i hi hsome)
    | some j =>
      obtain ⟨hqueue, harrivals, hrequests⟩ := step_put_some hfree hstep
      rw [harrivals, hrequests]
      by_cases hij : i = j
      · subst hij
        rw [update_self]
        exact Nat.lt_succ_self _
      · rw [hqueue, update_of_ne hij] at hsome
        rw [update_of_ne hij]
        exact Nat.lt_succ_of_lt (hnumbered i hi hsome)
  · obtain ⟨harrivals, hrequests, hqueue⟩ := step_of_not_put
      (fun pending room heq => hput ⟨pending, room, heq⟩) hstep
    rw [harrivals, hrequests]
    exact hnumbered i hi (hqueue i hsome ▸ hsome)

theorem InOrder.of_queue (horder : run.InOrder) (harrivals : next.arrivals = run.arrivals)
    (hqueue : ∀ i, next.ctx.pendingDataQueue i ≠ none →
      next.ctx.pendingDataQueue i = run.ctx.pendingDataQueue i) :
    next.InOrder := by
  have hwaits : ∀ source i, next.ctx.WaitsFor source i → run.ctx.WaitsFor source i := by
    rintro source i ⟨hi, pending, hpending, hfor⟩
    have hsame := hqueue i (hpending ▸ some_ne_none pending)
    exact ⟨hi, pending, hsame ▸ hpending, hfor⟩
  intro source i j hlt hi hj
  rw [harrivals]
  exact horder source i j hlt (hwaits source i hi) (hwaits source j hj)

theorem inOrder_put_iff {pending : PendingData} {i : ℕ} (horder : run.InOrder)
    (hnumbered : run.Numbered) (hfree : run.ctx.freeSlot = some i)
    (hqueue : next.ctx.pendingDataQueue = update run.ctx.pendingDataQueue i (some pending))
    (harrivals : next.arrivals = update run.arrivals i run.requests) :
    next.InOrder ↔ ∀ source, pending.isFor source = true →
        ∀ j, run.ctx.WaitsFor source j → j < i := by
  obtain ⟨hi, hnone⟩ := MacCtx.freeSlot_eq_some hfree
  have hother : ∀ source j, j ≠ i →
      (next.ctx.WaitsFor source j ↔ run.ctx.WaitsFor source j) := by
    intro source j hne
    rw [MacCtx.WaitsFor, MacCtx.WaitsFor, hqueue, update_of_ne hne]
  have hnew : ∀ source, next.ctx.WaitsFor source i ↔ pending.isFor source = true := by
    intro source
    rw [MacCtx.WaitsFor, hqueue, update_self]
    simp [hi]
  have hne : ∀ source j, run.ctx.WaitsFor source j → j ≠ i := by
    rintro source j ⟨-, _, hsome, -⟩ rfl
    exact nomatch hnone.symm.trans hsome
  have hold : ∀ source j, run.ctx.WaitsFor source j → run.arrivals j < run.requests := by
    rintro source j ⟨hj, _, hsome, -⟩
    exact hnumbered j hj (hsome ▸ some_ne_none _)
  constructor
  · intro hnext source hfor j hwaits
    have hj := hne source j hwaits
    by_contra hle
    have hlt := hnext source i j (by omega) ((hnew source).mpr hfor)
      ((hother source j hj).mpr hwaits)
    rw [harrivals, update_self, update_of_ne hj] at hlt
    have hbefore := hold source j hwaits
    omega
  · intro habove source j k hlt hj hk
    rw [harrivals]
    by_cases hki : k = i
    · subst hki
      have hjk : j ≠ k := Nat.ne_of_lt hlt
      rw [update_self, update_of_ne hjk]
      exact hold source j ((hother source j hjk).mp hj)
    · rw [update_of_ne hki]
      have hk := (hother source k hki).mp hk
      by_cases hji : j = i
      · subst hji
        have hkj := habove source ((hnew source).mp hj) k hk
        omega
      · rw [update_of_ne hji]
        exact horder source j k hlt ((hother source j hji).mp hj) hk

theorem inOrder_step_iff {event : IndirectEvent} (horder : run.InOrder)
    (hnumbered : run.Numbered) :
    (∀ next, run.step event = some next → next.InOrder) ↔ run.PutsAbove event := by
  by_cases hput : ∃ pending room, event = .put pending room
  · obtain ⟨pending, room, rfl⟩ := hput
    rw [PutsAbove]
    cases hfree : run.ctx.freeSlot with
    | none =>
      refine iff_of_true ?_ (fun i hi => nomatch hi)
      intro next hstep
      obtain ⟨hqueue, harrivals, -⟩ := step_put_none hfree hstep
      exact horder.of_queue harrivals (fun i _ => congrFun hqueue i)
    | some i =>
      simp only [mem_def, some.injEq, forall_eq']
      constructor
      · intro hall
        obtain ⟨hqueue, harrivals, -⟩ := step_put_some hfree
          (rfl : run.step (.put pending room) = some _)
        exact (inOrder_put_iff horder hnumbered hfree hqueue harrivals).mp (hall _ rfl)
      · intro habove next hstep
        obtain ⟨hqueue, harrivals, -⟩ := step_put_some hfree hstep
        exact (inOrder_put_iff horder hnumbered hfree hqueue harrivals).mpr habove
  · refine iff_of_true ?_ ?_
    · intro next hstep
      obtain ⟨harrivals, -, hqueue⟩ := step_of_not_put
        (fun pending room heq => hput ⟨pending, room, heq⟩) hstep
      exact horder.of_queue harrivals hqueue
    · cases event with
      | put pending room => exact absurd ⟨pending, room, rfl⟩ hput
      | dataRequestCmd param source secured => trivial
      | dataRequestCmdContinue radio => trivial
      | pendingDataTimeout i => trivial

theorem waitsFor_start (source : MacAddr) (i : ℕ) : ¬ start.ctx.WaitsFor source i := by
  rintro ⟨-, _, hnone, -⟩
  contradiction

theorem inOrder_start : start.InOrder :=
  fun source i _ _ hi _ => absurd hi (waitsFor_start source i)

theorem numbered_start : start.Numbered := fun _ _ hnone => absurd rfl hnone

/-- A poll is answered with the lowest frame for the device, and with the first
one queued if frames are put above those for the same device. -/
theorem poll_answered (events : List IndirectEvent) :
    AlongRun step (OnPoll Delivers) start events ∧ (AlongRun step PutsAbove start events →
        AlongRun step (OnPoll fun run source i _ => run.QueuedFirst source i)
          start events) := by
  have hdelivers : ∀ run event, OnPoll Delivers run event := by
    intro run event
    cases event with
    | put pending room => trivial
    | dataRequestCmd param source secured =>
        exact fun i framePending hsent => delivers_of_sentIndirectly hsent
    | dataRequestCmdContinue radio => trivial
    | pendingDataTimeout i => trivial
  refine ⟨alongRun_of_forall hdelivers start events, fun habove => ?_⟩
  refine @alongRun_of_invariant _ _ step PutsAbove _
    (fun run => run.InOrder ∧ run.Numbered) ?_ ?_ _ _
    ⟨inOrder_start, numbered_start⟩ habove
  · rintro run event ⟨horder, -⟩ -
    cases event with
    | put pending room => trivial
    | dataRequestCmd param source secured =>
        intro i framePending hsent
        exact horder.queuedFirst (delivers_of_sentIndirectly hsent)
    | dataRequestCmdContinue radio => trivial
    | pendingDataTimeout i => trivial
  · rintro run event next ⟨horder, hnumbered⟩ habove hstep
    exact ⟨(inOrder_step_iff horder hnumbered).mpr habove next hstep,
      numbered_step hnumbered hstep⟩

/-- Device 20 gets the frame which was put into the slot given up by the frame
for device 10 before the one which it has waited for longer. -/
theorem not_queuedFirst_reused :
    ¬ AlongRun step (OnPoll fun run source i _ => run.QueuedFirst source i)
      start
      ([.put ⟨1, .short 10, .data, false⟩ true, .put ⟨2, .short 20, .data, false⟩ true,
        .dataRequestCmd 3 (.short 10) true,
        .dataRequestCmdContinue ⟨false, false⟩,
        .put ⟨4, .short 20, .data, false⟩ true] ++
        [.dataRequestCmd 5 (.short 20) true]) := by
  intro halong
  have hobserved : (TransitionSystem.run step start
        [.put ⟨1, .short 10, .data, false⟩ true, .put ⟨2, .short 20, .data, false⟩ true,
          .dataRequestCmd 3 (.short 10) true,
          .dataRequestCmdContinue ⟨false, false⟩,
          .put ⟨4, .short 20, .data, false⟩ true]).map (fun last =>
            (last.ctx.sentIndirectly (.short 20) true,
              last.ctx.pendingDataQueue 1, last.arrivals 0, last.arrivals 1)) =
        some (some (0, true), some ⟨2, .short 20, .data, false⟩, 2, 1) := by
    decide +kernel
  obtain ⟨last, hrun, heq⟩ := map_eq_some_iff.mp hobserved
  obtain ⟨hsent, heq⟩ := Prod.mk.inj heq
  obtain ⟨hslot, heq⟩ := Prod.mk.inj heq
  obtain ⟨hzero, hone⟩ := Prod.mk.inj heq
  have hwaits : last.ctx.WaitsFor (.short 20) 1 := ⟨by decide, _, hslot, rfl⟩
  have hfirst := halong.last hrun 0 true hsent 1 hwaits
  rw [hzero, hone] at hfirst
  contradiction

end IndirectRun

end Zboss
