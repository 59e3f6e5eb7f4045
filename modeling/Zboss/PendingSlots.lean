import Zboss.IndirectTransmission

/-!
# Slots of the pending queue, alarms and continuations

An occupied slot is to have one alarm, the pending bit of the transceiver is to
be set while a slot is occupied, and the continuation of a transmission is to
find its frame in the slot it was found in.  The alarm of the slot may expire
before the continuation runs, and an alarm cannot be scheduled if there is no
free one.
-/

namespace Zboss

open Function Option List IndirectCtx TransitionSystem

namespace IndirectRun

/-- Slots, alarms and the pending bit agree, and the frame which is being sent
is where its continuation looks for it. -/
structure Consistent (run : IndirectRun) : Prop where
  alarm_iff : ∀ i, i < macPendingQueueSize →
    (run.ctx.pendingDataQueue i ≠ none ↔ run.ctx.timeouts.count i = 1)
  pendingBit_iff : run.ctx.pendingBit = true ↔
    ∃ i, i < macPendingQueueSize ∧ run.ctx.pendingDataQueue i ≠ none
  found : ∀ param i frame,
    run.ctx.txWaitCb = some (.handleDataRequestCmdContinue param i frame) →
      run.ctx.pendingDataQueue i ≠ none ∧ run.arrivals i = run.serving

/-- A slot which is taken gets an alarm, and the alarm of a slot does not
expire while its frame is being sent. -/
def Meets (run : IndirectRun) : IndirectEvent → Prop
  | .put _ room => run.ctx.freeSlot ≠ none → room = true
  | .pendingDataTimeout i =>
      i ∈ run.ctx.timeouts → ∀ param frame,
        run.ctx.txWaitCb ≠ some (.handleDataRequestCmdContinue param i frame)
  | _ => True

structure Scheduled (run : IndirectRun) : Prop where
  count_le : ∀ i, run.ctx.timeouts.count i ≤ 1
  alarm_lt : ∀ i ∈ run.ctx.timeouts, i < macPendingQueueSize
  index_lt : ∀ param i frame,
    run.ctx.txWaitCb = some (.handleDataRequestCmdContinue param i frame) →
      i < macPendingQueueSize

section Steps

variable {run next : IndirectRun}

theorem Consistent.count_eq_zero
    (hconsistent : run.Consistent) (hscheduled : run.Scheduled) {i : ℕ}
    (hi : i < macPendingQueueSize) (hfree : run.ctx.pendingDataQueue i = none) :
    run.ctx.timeouts.count i = 0 := by
  have hle := hscheduled.count_le i
  have hne : run.ctx.timeouts.count i ≠ 1 := by
    intro hone
    exact (hconsistent.alarm_iff i hi).mpr hone hfree
  omega

theorem consistent_put_of_none
    {pending : PendingData} {room : Bool} (hconsistent : run.Consistent)
    (hfree : run.ctx.freeSlot = none)
    (hstep : run.step (.put pending room) = some next) : next.Consistent := by
  obtain ⟨halarm, -, hfound⟩ := hconsistent
  obtain rfl := some.inj hstep
  rw [putDataToPendingQueue_of_none hfree, hfree]
  refine ⟨halarm, iff_of_true rfl ⟨0, by decide, fun hnone => ?_⟩, hfound⟩
  have hall := List.find?_eq_none.mp hfree 0 (by decide)
  have hnone : run.ctx.pendingDataQueue 0 = none := hnone
  rw [hnone] at hall
  exact hall rfl

theorem consistent_put_iff_of_some {pending : PendingData} {room : Bool} {i : ℕ}
    (hconsistent : run.Consistent) (hscheduled : run.Scheduled)
    (hfree : run.ctx.freeSlot = some i)
    (hstep : run.step (.put pending room) = some next) :
    next.Consistent ↔ room = true := by
  obtain ⟨hi, hnone⟩ := MacCtx.freeSlot_eq_some hfree
  have hzero := hconsistent.count_eq_zero hscheduled hi hnone
  obtain ⟨halarm, -, hfound⟩ := hconsistent
  obtain rfl := some.inj hstep
  rw [putDataToPendingQueue_of_some hfree, hfree]
  constructor
  · intro hnext
    by_contra hroom
    have hone := (hnext.alarm_iff i hi).mp (by
      dsimp only
      rw [MacCtx.setSlot_self]
      exact some_ne_none pending)
    rw [if_neg hroom, hzero] at hone
    contradiction
  · intro hroom
    rw [if_pos hroom]
    refine ⟨fun j hj => ?_, iff_of_true rfl ⟨i, hi, ?_⟩, ?_⟩
    · dsimp only
      rw [count_append]
      by_cases hji : j = i
      · subst hji
        rw [MacCtx.setSlot_self, hzero, count_singleton_self]
        exact iff_of_true (some_ne_none pending) rfl
      · rw [MacCtx.setSlot_of_ne hji, count_eq_zero_of_not_mem
          (fun hmem => hji (mem_singleton.mp hmem))]
        exact halarm j hj
    · dsimp only
      rw [MacCtx.setSlot_self]
      exact some_ne_none pending
    · intro param j frame hwait
      obtain ⟨hoccupied, hserving⟩ := hfound param j frame hwait
      have hji : j ≠ i := by
        rintro rfl
        exact hoccupied hnone
      dsimp only
      rw [MacCtx.setSlot_of_ne hji, update_of_ne hji]
      exact ⟨hoccupied, hserving⟩

theorem scheduled_put {pending : PendingData} {room : Bool} (hconsistent : run.Consistent)
    (hscheduled : run.Scheduled)
    (hstep : run.step (.put pending room) = some next) : next.Scheduled := by
  obtain rfl := some.inj hstep
  cases hfree : run.ctx.freeSlot with
  | none =>
    rw [putDataToPendingQueue_of_none hfree]
    exact ⟨hscheduled.count_le, hscheduled.alarm_lt, hscheduled.index_lt⟩
  | some i =>
    obtain ⟨hi, hnone⟩ := MacCtx.freeSlot_eq_some hfree
    have hzero := hconsistent.count_eq_zero hscheduled hi hnone
    rw [putDataToPendingQueue_of_some hfree]
    cases room with
    | false => exact ⟨hscheduled.count_le, hscheduled.alarm_lt, hscheduled.index_lt⟩
    | true =>
      refine ⟨fun j => ?_, fun j hmem => ?_, hscheduled.index_lt⟩
      · rw [if_pos rfl, count_append]
        by_cases hji : j = i
        · subst hji
          rw [hzero, count_singleton_self]
        · rw [count_eq_zero_of_not_mem (fun hmem => hji (mem_singleton.mp hmem))]
          exact hscheduled.count_le j
      · rw [if_pos rfl] at hmem
        obtain hold | hnew := mem_append.mp hmem
        · exact hscheduled.alarm_lt j hold
        · exact mem_singleton.mp hnew ▸ hi

/-! ## Frames which are given up -/

theorem consistent_of_released
    {i : ℕ} (hconsistent : run.Consistent) (hi : i < macPendingQueueSize)
    (hreleased : run.ctx.Released i next.ctx)
    (harrivals : next.arrivals = run.arrivals)
    (hserving : next.serving = run.serving)
    (hwait : ∀ param j frame,
      next.ctx.txWaitCb = some (.handleDataRequestCmdContinue param j frame) →
        j ≠ i ∧ run.ctx.txWaitCb = some (.handleDataRequestCmdContinue param j frame)) :
    next.Consistent := by
  obtain ⟨halarm, hbit, hfound⟩ := hconsistent
  obtain ⟨hoccupied, hqueue, htimeouts, hpending⟩ := hreleased
  refine ⟨fun j hj => ?_, ?_, fun param j frame hnext => ?_⟩
  · rw [hqueue, htimeouts]
    by_cases hji : j = i
    · subst hji
      rw [update_self, count_erase_self, (halarm j hj).mp hoccupied]
      exact iff_of_false (fun hne => hne rfl) (by decide)
    · rw [update_of_ne hji, count_erase_of_ne hji]
      exact halarm j hj
  · rw [hpending, Bool.and_eq_true, Bool.not_eq_true', Bool.eq_false_iff, Ne,
      MacCtx.pendingQueueIsEmpty_iff, not_forall]
    simp only [not_forall, exists_prop]
    refine and_iff_right_of_imp ?_
    rintro ⟨j, hj, hsome⟩
    rw [hqueue] at hsome
    refine hbit.mpr ⟨j, hj, fun hnone => hsome ?_⟩
    by_cases hji : j = i
    · subst hji
      exact update_self ..
    · rw [update_of_ne hji, hnone]
  · obtain ⟨hji, hbefore⟩ := hwait param j frame hnext
    rw [hqueue, update_of_ne hji, harrivals, hserving]
    exact hfound param j frame hbefore

theorem scheduled_of_released {i : ℕ} (hscheduled : run.Scheduled)
    (hreleased : run.ctx.Released i next.ctx)
    (hwait : next.ctx.txWaitCb = none ∨
      next.ctx.txWaitCb = run.ctx.txWaitCb) : next.Scheduled := by
  have hsub : next.ctx.timeouts.Sublist run.ctx.timeouts := by
    rw [hreleased.timeouts]
    exact erase_sublist
  refine ⟨fun j => ?_, fun j hmem => ?_, fun param j frame hnext => ?_⟩
  · exact Nat.le_trans (hsub.count_le j) (hscheduled.count_le j)
  · exact hscheduled.alarm_lt j (hsub.subset hmem)
  · obtain hnone | hsame := hwait
    · exact nomatch hnone.symm.trans hnext
    · exact hscheduled.index_lt param j frame (hsame ▸ hnext)

theorem pendingDataTimeout_of_mem {ctx : IndirectCtx} {i : ℕ} (hmem : i ∈ ctx.timeouts)
    (hoccupied : ctx.pendingDataQueue i ≠ none) :
    ∃ next, ctx.pendingDataTimeout i = some next := by
  obtain ⟨pending, hpending⟩ := ne_none_iff_exists'.mp hoccupied
  rw [pendingDataTimeout, if_pos hmem, MacCtx.pendingDataTimeout, hpending]
  exact ⟨_, rfl⟩

theorem consistent_pendingDataTimeout_iff
    {i : ℕ} (hconsistent : run.Consistent) (hscheduled : run.Scheduled) :
    (∀ next, run.step (.pendingDataTimeout i) = some next →
        next.Consistent) ↔ run.Meets (.pendingDataTimeout i) := by
  constructor
  · intro hall hmem param frame hwait
    have hi := hscheduled.alarm_lt i hmem
    obtain ⟨hoccupied, -⟩ := hconsistent.found param i frame hwait
    obtain ⟨after, hafter⟩ := pendingDataTimeout_of_mem hmem hoccupied
    obtain ⟨-, hreleased, hsame⟩ := pendingDataTimeout_eq_some hafter
    have hnext := hall { run with ctx := after } (by
      rw [step, hafter]
      rfl)
    obtain ⟨hstill, -⟩ := hnext.found param i frame (hsame.trans hwait)
    dsimp only at hstill
    rw [hreleased.queue, update_self] at hstill
    exact hstill rfl
  · intro hmeets next hstep
    obtain ⟨after, hafter, heq⟩ := bind_eq_some_iff.mp hstep
    obtain rfl := some.inj heq
    obtain ⟨hmem, hreleased, hsame⟩ := pendingDataTimeout_eq_some hafter
    refine consistent_of_released hconsistent (hscheduled.alarm_lt i hmem)
      hreleased rfl rfl ?_
    intro param j frame hwait
    have hbefore := hsame.symm.trans hwait
    refine ⟨?_, hbefore⟩
    rintro rfl
    exact hmeets hmem param frame hbefore

theorem scheduled_pendingDataTimeout {i : ℕ} (hscheduled : run.Scheduled)
    (hstep : run.step (.pendingDataTimeout i) = some next) :
    next.Scheduled := by
  obtain ⟨after, hafter, heq⟩ := bind_eq_some_iff.mp hstep
  obtain rfl := some.inj heq
  obtain ⟨-, hreleased, hsame⟩ := pendingDataTimeout_eq_some hafter
  exact scheduled_of_released hscheduled hreleased (.inr hsame)

theorem dataRequestCmdContinue_step {radio : RadioStatus} (hconsistent : run.Consistent)
    (hscheduled : run.Scheduled)
    (hstep : run.step (.dataRequestCmdContinue radio) = some next) :
    next.Consistent ∧ next.Scheduled := by
  obtain ⟨after, hafter, heq⟩ := bind_eq_some_iff.mp hstep
  obtain rfl := some.inj heq
  obtain ⟨param, i, frame, hwait, hreleased, hidle⟩ :=
    handleDataRequestCmdContinue_eq_some hafter
  refine ⟨?_, scheduled_of_released hscheduled hreleased (.inl hidle)⟩
  refine consistent_of_released hconsistent
    (hscheduled.index_lt param i frame hwait) hreleased rfl rfl ?_
  intro param j frame hnext
  exact nomatch hidle.symm.trans hnext

theorem dataRequestCmd_step {param : ℕ} {source : MacAddr} {secured : Bool}
    (hconsistent : run.Consistent) (hscheduled : run.Scheduled)
    (hstep : run.step (.dataRequestCmd param source secured) = some next) :
    next.Consistent ∧ next.Scheduled := by
  rw [step] at hstep
  split at hstep
  case isFalse => contradiction
  case isTrue hidle =>
    obtain rfl := some.inj hstep
    have hqueue := MacCtx.acceptDataRequestCmd_pendingDataQueue
      run.ctx.toMacCtx param source secured
    have hfound : ∀ waiting i frame,
        (run.ctx.handleDataRequestCmd param source secured).txWaitCb =
          some (.handleDataRequestCmdContinue waiting i frame) →
        run.ctx.checkPendingData source = some i ∧ run.ctx.pendingDataQueue i ≠ none :=
      fun waiting i frame hwait => MacCtx.acceptDataRequestCmd_txWaitCb hidle hwait
    constructor
    · refine ⟨?_, ?_, ?_⟩
      · dsimp only [handleDataRequestCmd]
        rw [hqueue]
        exact hconsistent.alarm_iff
      · dsimp only [handleDataRequestCmd]
        rw [hqueue]
        exact hconsistent.pendingBit_iff
      · intro waiting i frame hwait
        obtain ⟨hcheck, hoccupied⟩ := hfound waiting i frame hwait
        dsimp only [handleDataRequestCmd]
        rw [hqueue, hcheck]
        exact ⟨hoccupied, rfl⟩
    · refine ⟨hscheduled.count_le, hscheduled.alarm_lt, ?_⟩
      intro waiting i frame hwait
      obtain ⟨hcheck, -⟩ := hfound waiting i frame hwait
      exact (MacCtx.checkPendingData_eq_some hcheck).1

end Steps

theorem consistent_step_iff
    {run : IndirectRun} {event : IndirectEvent} (hconsistent : run.Consistent)
    (hscheduled : run.Scheduled) :
    (∀ next, run.step event = some next → next.Consistent) ↔ run.Meets event := by
  cases event with
  | put pending room =>
    cases hfree : run.ctx.freeSlot with
    | none =>
      refine iff_of_true ?_ (fun hsome => absurd hfree hsome)
      intro next hstep
      exact consistent_put_of_none hconsistent hfree hstep
    | some i =>
      have hiff : ∀ next, run.step (.put pending room) = some next →
          (next.Consistent ↔ room = true) := fun next =>
        consistent_put_iff_of_some hconsistent hscheduled hfree
      constructor
      · intro hall _
        exact (hiff _ rfl).mp (hall _ rfl)
      · intro hmeets next hstep
        refine (hiff next hstep).mpr (hmeets ?_)
        exact hfree ▸ some_ne_none i
  | dataRequestCmd param source secured =>
    refine iff_of_true (fun next hstep => ?_) trivial
    exact (dataRequestCmd_step hconsistent hscheduled hstep).1
  | dataRequestCmdContinue radio =>
    refine iff_of_true (fun next hstep => ?_) trivial
    exact (dataRequestCmdContinue_step hconsistent hscheduled hstep).1
  | pendingDataTimeout i => exact consistent_pendingDataTimeout_iff hconsistent hscheduled

theorem scheduled_step {run next : IndirectRun} {event : IndirectEvent}
    (hconsistent : run.Consistent) (hscheduled : run.Scheduled)
    (hstep : run.step event = some next) : next.Scheduled := by
  cases event with
  | put pending room => exact scheduled_put hconsistent hscheduled hstep
  | dataRequestCmd param source secured =>
    exact (dataRequestCmd_step hconsistent hscheduled hstep).2
  | dataRequestCmdContinue radio =>
    exact (dataRequestCmdContinue_step hconsistent hscheduled hstep).2
  | pendingDataTimeout i => exact scheduled_pendingDataTimeout hscheduled hstep

theorem consistent_start : start.Consistent := by
  refine ⟨fun i _ => ?_, ?_, fun param i frame hwait => nomatch hwait⟩
  · exact iff_of_false (fun hne => hne rfl) (fun hone => nomatch hone)
  · refine iff_of_false (fun hbit => nomatch hbit) ?_
    rintro ⟨i, -, hne⟩
    exact hne rfl

theorem scheduled_start : start.Scheduled :=
  ⟨fun _ => Nat.zero_le 1, fun _ hmem => (nomatch hmem), fun _ _ _ hwait => nomatch hwait⟩

/-- Slots, alarms and continuations agree exactly as long as alarms find room
and do not expire while their frame is being sent. -/
theorem everyState_consistent_iff (events : List IndirectEvent) :
    EveryState step Consistent start events ↔
      AlongRun step Meets start events :=
  @everyState_iff_alongRun _ _ step Meets Consistent Scheduled
    (fun _ _ hconsistent hscheduled => consistent_step_iff hconsistent hscheduled)
    (fun _ _ _ hconsistent hscheduled _ hstep =>
      scheduled_step hconsistent hscheduled hstep)
    start events consistent_start scheduled_start

/-- The alarm of a slot expires between the transmission of its frame and the
continuation, which then waits for an empty slot. -/
theorem not_everyState_consistent_expired : ¬ EveryState step Consistent start
      [.put ⟨1, .short 10, .data, false⟩ true,
        .dataRequestCmd 2 (.short 10) true, .pendingDataTimeout 0] := by
  intro hevery
  have hobserved : (TransitionSystem.run step start
        [.put ⟨1, .short 10, .data, false⟩ true, .dataRequestCmd 2 (.short 10) true,
          .pendingDataTimeout 0]).map (fun last =>
            (last.ctx.txWaitCb, last.ctx.pendingDataQueue 0)) =
        some (some (.handleDataRequestCmdContinue 2 0 .data), none) := by
    decide +kernel
  obtain ⟨last, hrun, heq⟩ := map_eq_some_iff.mp hobserved
  obtain ⟨hwait, hslot⟩ := Prod.mk.inj heq
  exact ((hevery.last hrun).found 2 0 .data hwait).1 hslot

end IndirectRun

end Zboss
