import Zboss.AlarmQueueRefinement

/-!
# Correctness of the queue of alarms

Every call does to the alarms what it is for, with two exceptions: a new entry
which lies `ZB_HALF_MAX_TIME_VAL` before the first one goes to the end of the
queue, and the loop, which reads the timer only once, may take an alarm far
ahead for one whose time has come.
-/

namespace Zboss

open Function Option List AlarmCall DoublyLinked LinkedChain TransitionSystem

theorem map_update_of_notMem
    {tmBuffer : ℕ → TmQEnt} {nent : ℕ} {nodes : List ℕ} (hnent : nent ∉ nodes)
    (alarm : TmQEnt) :
    nodes.map (update tmBuffer nent alarm) = nodes.map tmBuffer := by
  apply map_congr_left
  intro ent hent
  apply update_of_ne
  rintro rfl
  exact hnent hent

theorem AlarmRep.alarmSet_eq {state : AlarmState} {nodes free : List ℕ}
    (hrep : AlarmRep state nodes free) :
    state.alarmSet = ⟨nodes.map state.g.tmBuffer, state.executing.map state.g.tmBuffer,
        state.g.timer⟩ := by
  rw [AlarmState.alarmSet, hrep.queued_eq]

theorem AlarmRep.wellFormed_iff {state : AlarmState} {nodes free : List ℕ}
    (hrep : AlarmRep state nodes free) :
    state.WellFormed ↔ Sorted state.g.runTime nodes := by
  constructor
  · rintro ⟨nodes', free', hrep', hsorted⟩
    rw [← hrep.queued_eq, hrep'.queued_eq]
    exact hsorted
  · intro hsorted
    exact ⟨nodes, free, hrep, hsorted⟩

/-- No new entry is `ZB_HALF_MAX_TIME_VAL` before the first one.  The timer
may have gone on since the loop has read it: an alarm which then gets to the
head is not so far ahead of the old time that it counts as before it. -/
def AlarmCall.Safe (state : AlarmState) (call : AlarmCall) : Prop :=
  call.Enabled state → match call with
    | scheduleAlarm _ _ runAfter =>
        state.g.tmFreelist ≠ none → ∀ head ∈ state.g.tmQueue.head,
            state.g.runTime head - (state.g.timer + runAfter) ≠
              zbHalfMaxTimeVal
    | callAlarm =>
        ∀ t ∈ state.t, ∀ head ∈ state.g.tmQueue.head,
          let past := (state.g.timer - t).toNat
          let ahead := (state.g.runTime head - state.g.timer).toNat
          ahead = 0 ∨ 2 ^ 15 ≤ ahead ∨ past + ahead < 2 ^ 15 + 2 ∨ 2 ^ 16 < past + ahead
    | _ => True

instance AlarmCall.decidableSafe (state : AlarmState) (call : AlarmCall) :
    Decidable (call.Safe state) :=
  match call with
  | scheduleAlarm _ _ _ =>
      inferInstanceAs (Decidable (_ → _ → ∀ head ∈ state.g.tmQueue.head, _ ≠ _))
  | callAlarm =>
      @instDecidableForall _ _ inferInstance
        (@Option.decidableForallMem _ _ (fun _ => inferInstance) state.t)
  | cancelAlarm _ _ | enterLoop | returnFromAlarm | leaveLoop
  | advanceTimer _ => inferInstanceAs (Decidable (_ → True))

theorem reached_iff {t timer runTime : UInt16} (hget : zbTimeGe t runTime)
    (hopposite : (timer - runTime).toNat ≠ 2 ^ 15) :
    NotBefore timer runTime ↔
      (runTime - timer).toNat = 0 ∨ 2 ^ 15 ≤ (runTime - timer).toNat ∨
        (timer - t).toNat + (runTime - timer).toNat < 2 ^ 15 + 2 ∨
          2 ^ 16 < (timer - t).toNat + (runTime - timer).toNat := by
  rw [zbTimeGe, decide_eq_true_iff, UInt16.lt_iff_toNat_lt, zbHalfMaxTimeVal_toNat] at hget
  unfold NotBefore
  simp only [UInt16.toNat_sub] at *
  have := t.toNat_lt
  have := timer.toNat_lt
  have := runTime.toNat_lt
  omega

theorem TimesClose.ne_opposite
    {timer : UInt16} {times : List UInt16} (hclose : TimesClose (timer :: times))
    {time : UInt16} (htime : time ∈ times) :
    (timer - time).toNat ≠ 2 ^ 15 := by
  obtain ⟨first, -, hall⟩ := hclose
  have htimer := hall timer mem_cons_self
  have hother := hall time (mem_cons_of_mem _ htime)
  unfold NotBefore at *
  simp only [UInt16.toNat_sub] at *
  have := timer.toNat_lt
  have := time.toNat_lt
  have := first.toNat_lt
  omega

theorem AlarmSet.Step.reached {alarms next : AlarmSet} {ret : Except RetError Unit}
    (hstep : alarms.Step .callAlarm ret next) :
    ∃ alarm, next.running = some alarm ∧
      NotBefore alarms.clock alarm.runTime := by
  cases hstep with
  | call alarm _ hreached => exact ⟨alarm, rfl, hreached⟩

section Calls

variable {state : AlarmState} {nodes free : List ℕ}

theorem correct_scheduleAlarm_full
    (hrep : AlarmRep state nodes []) (hsorted : Sorted state.g.runTime nodes)
    (func : ℕ) (param : UInt8) (runAfter : UInt16) :
    (scheduleAlarm func param runAfter).Correct state := by
  intro _
  have hfree : state.g.tmFreelist = none := hrep.freelist
  refine ⟨state, .error .overflow, ?_, ⟨nodes, [], hrep, hsorted⟩, ?_⟩
  · rw [exec, Zboss.zbScheduleAlarm, hfree]
    rfl
  · apply AlarmSet.Step.full
    have hlength := hrep.length_le
    rw [hrep.alarmSet_eq, Multiset.coe_card, length_map]
    cases hexecuting : state.executing with
    | none => simpa [hexecuting] using hlength
    | some ent => simpa [hexecuting] using hlength

theorem scheduleAlarm_effect {nent : ℕ} (hrep : AlarmRep state nodes (nent :: free))
    (func : ℕ) (param : UInt8) (runAfter : UInt16) :
    ∃ next, (scheduleAlarm func param runAfter).exec state = some (next, .ok ()) ∧
      AlarmRep next (insertByTime next.g.runTime nent nodes) free ∧
      next.g.runTime nent = state.g.timer + runAfter ∧
      (∀ ent ∈ nodes, next.g.runTime ent = state.g.runTime ent) ∧
      next.g.timer = state.g.timer ∧
        state.alarmSet.Step (.scheduleAlarm func param runAfter) (.ok ())
          next.alarmSet := by
  obtain ⟨g, hschedule, hbuffer, htimer, hrep'⟩ := hrep.zbScheduleAlarm func param runAfter
  have hnodup := hrep.nodup
  rw [append_assoc] at hnodup
  obtain ⟨-, hothers, hdisjoint⟩ := nodup_append.mp hnodup
  rw [cons_append, nodup_cons, mem_append, not_or] at hothers
  have hnent : nent ∉ nodes := fun hmem => hdisjoint nent hmem nent (by simp) rfl
  refine ⟨{ state with g := g }, ?_, hrep', ?_, ?_, htimer, ?_⟩
  · rw [exec, hschedule]
    rfl
  · rw [TmGlobals.runTime, hbuffer, update_self]
  · intro ent hent
    rw [TmGlobals.runTime, hbuffer, update_of_ne]
    · rfl
    · rintro rfl
      exact hnent hent
  · have hroom : state.alarmSet.pending.card +
        state.alarmSet.running.toList.length < schedulerQSize := by
      have hlength := hrep.length_le
      rw [hrep.alarmSet_eq, Multiset.coe_card, length_map]
      cases hexecuting : state.executing with
      | none => simp [hexecuting] at hlength ⊢; omega
      | some ent => simp [hexecuting] at hlength ⊢; omega
    have hstep := AlarmSet.Step.schedule func param runAfter hroom
    have hpending : ((insertByTime g.runTime nent nodes).map g.tmBuffer :
        Multiset TmQEnt) =
        ⟨func, param, state.g.timer + runAfter⟩ ::ₘ
          (nodes.map state.g.tmBuffer : List TmQEnt) := by
      rw [hbuffer, ← map_update_of_notMem hnent ⟨func, param, state.g.timer + runAfter⟩]
      refine (Multiset.coe_eq_coe.mpr ((insertByTime_perm _ nent nodes).map _)).trans ?_
      rw [map_cons, update_self, Multiset.cons_coe]
    have hrunning : state.executing.map g.tmBuffer =
        state.executing.map state.g.tmBuffer := by
      cases hexecuting : state.executing with
      | none => rfl
      | some ent =>
        have hne : ent ≠ nent := by
          rintro rfl
          exact hothers.1.2 (by simp [hexecuting])
        rw [map_some, map_some, hbuffer, update_of_ne hne]
    rw [hrep'.alarmSet_eq]
    dsimp only
    rw [hpending, hrunning, htimer]
    rw [hrep.alarmSet_eq] at hstep ⊢
    exact hstep

theorem correct_scheduleAlarm_iff
    (hrep : AlarmRep state nodes free) (hsorted : Sorted state.g.runTime nodes)
    (func : ℕ) (param : UInt8) (runAfter : UInt16)
    (hclose : ∀ next, (scheduleAlarm func param runAfter).apply state = some next →
        TimesClose next.times) :
    (scheduleAlarm func param runAfter).Correct state ↔
      (scheduleAlarm func param runAfter).Safe state := by
  by_cases henabled : (scheduleAlarm func param runAfter).Enabled state
  swap
  · exact iff_of_true (fun h => absurd h henabled) fun h => absurd h henabled
  cases free with
  | nil =>
    refine iff_of_true (correct_scheduleAlarm_full hrep hsorted func param runAfter) ?_
    intro _ hfree
    exact absurd hrep.freelist hfree
  | cons nent free =>
    obtain ⟨next, hexec, hrep', hnent, hothers, -, hstep⟩ :=
      scheduleAlarm_effect hrep func param runAfter
    have happly : (scheduleAlarm func param runAfter).apply state =
        some next := by
      rw [apply, if_pos henabled, hexec]
      rfl
    have hcorrect : (scheduleAlarm func param runAfter).Correct state ↔
          next.WellFormed := by
      constructor
      · intro hcorrect
        obtain ⟨next', ret, hexec', hwf, -⟩ := hcorrect henabled
        rw [hexec] at hexec'
        obtain ⟨rfl, -⟩ := Prod.ext_iff.mp (some.inj hexec')
        exact hwf
      · intro hwf _
        exact ⟨next, .ok (), hexec, hwf, hstep⟩
    obtain ⟨first, -, hall⟩ := hclose next happly
    have hnear : ∀ ent ∈ nent :: nodes,
        NotBefore (next.g.runTime ent) first := by
      intro ent hent
      apply hall
      rw [AlarmState.times, hrep'.queued_eq]
      refine mem_cons_of_mem _ (mem_map_of_mem ?_)
      exact (insertByTime_perm _ nent nodes).mem_iff.mpr hent
    have hsorted' : Sorted next.g.runTime nodes := by
      refine List.Pairwise.imp_of_mem ?_ hsorted
      intro x y hx hy hxy
      rw [hothers x hx, hothers y hy]
      exact hxy
    rw [hcorrect, hrep'.wellFormed_iff,
      sorted_insertByTime_iff hsorted' (hnear nent mem_cons_self)
        fun ent hent => hnear ent (mem_cons_of_mem _ hent)]
    have hfree : state.g.tmFreelist ≠ none := by
      rw [hrep.freelist.1]
      exact some_ne_none _
    rw [Overlooked, hnent]
    constructor
    · intro hover _ _ head hhead heq
      rw [hrep.queue.head_eq] at hhead
      apply hover
      refine ⟨head, hhead, ?_⟩
      rw [hothers head (mem_of_mem_head? hhead)]
      exact heq
    · rintro hsafe ⟨head, hhead, heq⟩
      rw [hothers head (mem_of_mem_head? hhead)] at heq
      refine hsafe henabled hfree head ?_ heq
      rw [hrep.queue.head_eq]
      exact hhead

theorem AlarmRep.cancelAlarm
    (hrep : AlarmRep state nodes free) (func : ℕ) (param : UInt8) :
    ∃ g free', (cancelAlarm func param).exec state =
        some ({ state with g := g }, if nodes.any fun ent =>
            (state.g.tmBuffer ent).isCancelledBy func param
          then .ok () else .error .notFound) ∧
      g.tmBuffer = state.g.tmBuffer ∧ g.timer = state.g.timer ∧
        AlarmRep { state with g := g }
          (keptBy state.g.tmBuffer func param nodes) free' := by
  have hfuel : nodes.length < schedulerQSize + 1 := by
    have := hrep.length_le
    omega
  obtain ⟨g, free', hcancel, hbuffer, htimer, hrep'⟩ :=
    @AlarmRep.cancelFrom state [] nodes free (schedulerQSize + 1) state.g
      (.error .notFound) func param hrep hfuel
  refine ⟨g, free', ?_, hbuffer, htimer, hrep'⟩
  rw [exec, zbScheduleAlarmCancel, hrep.queue.head_eq, hcancel]
  rfl

theorem runTime_congr {g next : TmGlobals} (hbuffer : next.tmBuffer = g.tmBuffer) :
    next.runTime = g.runTime := by
  funext ent
  rw [TmGlobals.runTime, hbuffer]
  rfl

theorem correct_cancelAlarm
    (hrep : AlarmRep state nodes free) (hsorted : Sorted state.g.runTime nodes)
    (func : ℕ) (param : UInt8) :
    (cancelAlarm func param).Correct state := by
  intro _
  obtain ⟨g, free', hexec, hbuffer, htimer, hrep'⟩ := hrep.cancelAlarm func param
  refine ⟨_, _, hexec, ⟨_, free', hrep', ?_⟩, ?_⟩
  · dsimp only
    rw [runTime_congr hbuffer]
    exact hsorted.sublist (keptBy_sublist _ func param nodes)
  · refine @step_cancelAlarm _ _ state.g.tmBuffer nodes func param ?_ ?_
    · rw [hrep.alarmSet_eq]
    · rw [hrep'.alarmSet_eq, hrep.alarmSet_eq]
      dsimp only
      rw [hbuffer, htimer]

theorem AlarmRep.callAlarm
    {head : ℕ} {rest : List ℕ} (hrep : AlarmRep state (head :: rest) free)
    (hexecuting : state.executing = none) :
    state.g.tmQueue.cutHead.1 = some head ∧ AlarmRep
        { state with
          g.tmQueue := state.g.tmQueue.cutHead.2
          executing := state.g.tmQueue.cutHead.1 } rest free := by
  obtain ⟨hcut, hqueue⟩ := hrep.queue.cutHead
  refine ⟨hcut, hqueue, ?_, ?_⟩
  · dsimp only
    rw [DList.cutHead_next]
    exact hrep.freelist
  · refine List.Perm.trans ?_ hrep.partition
    rw [hcut, hexecuting]
    simpa using perm_append_singleton head (rest ++ free)

section

variable (hrep : AlarmRep state nodes free)

include hrep

theorem correct_callAlarm_iff (hsorted : Sorted state.g.runTime nodes)
    (hclose : TimesClose state.times) :
    callAlarm.Correct state ↔ callAlarm.Safe state := by
  by_cases henabled : callAlarm.Enabled state
  swap
  · exact iff_of_true (fun h => absurd h henabled) fun h => absurd h henabled
  obtain ⟨hexecuting, t, ht, head, hhead, hget⟩ := id henabled
  have hnodes := hrep.queue.head_eq.symm.trans hhead
  obtain ⟨rest, rfl⟩ := List.head?_eq_some_iff.mp hnodes
  obtain ⟨hcut, hrep'⟩ := hrep.callAlarm hexecuting
  have hcorrect : callAlarm.Correct state ↔
      NotBefore state.g.timer (state.g.runTime head) := by
    constructor
    · intro hcorrect
      obtain ⟨next, ret, hexec, -, hstep⟩ := hcorrect henabled
      obtain ⟨rfl, -⟩ := Prod.ext_iff.mp (some.inj hexec)
      obtain ⟨alarm, hrunning, hreached⟩ := hstep.reached
      rw [hrep'.alarmSet_eq] at hrunning
      dsimp only at hrunning
      rw [hcut] at hrunning
      obtain rfl := some.inj hrunning
      rw [hrep.alarmSet_eq] at hreached
      exact hreached
    · intro hreached _
      refine ⟨_, _, rfl, ⟨rest, free, hrep', ?_⟩, ?_⟩
      · exact (pairwise_cons.mp hsorted).2
      · rw [hrep'.alarmSet_eq, hrep.alarmSet_eq]
        dsimp only
        rw [hcut]
        have hstep := @AlarmSet.Step.call ⟨(head :: rest).map state.g.tmBuffer,
            state.executing.map state.g.tmBuffer, state.g.timer⟩
          (state.g.tmBuffer head) (by simp) hreached
        rw [map_cons, ← Multiset.cons_coe, Multiset.erase_cons_head] at hstep
        exact hstep
  have hopposite : (state.g.timer - state.g.runTime head).toNat ≠ 2 ^ 15 := by
    apply TimesClose.ne_opposite hclose
    rw [hrep.queued_eq]
    exact mem_map_of_mem mem_cons_self
  rw [hcorrect, reached_iff hget hopposite]
  constructor
  · intro hreached _ t' ht' head' hhead'
    obtain rfl := some.inj (ht.symm.trans ht')
    obtain rfl := some.inj (hhead.symm.trans hhead')
    exact hreached
  · intro hsafe
    exact hsafe henabled t ht head hhead

theorem AlarmRep.returnFromAlarm {ent : ℕ} (hexecuting : state.executing = some ent) :
    AlarmRep { state with g := state.g.pushFree ent, executing := none } nodes
      (ent :: free) := by
  apply alarmRep_pushFree hrep.queue hrep.freelist
  refine List.Perm.trans ?_ hrep.partition
  rw [hexecuting, append_assoc nodes free]
  simpa using List.Perm.append_left nodes (perm_append_singleton ent free).symm

theorem correct_returnFromAlarm (hsorted : Sorted state.g.runTime nodes) :
    returnFromAlarm.Correct state := by
  intro henabled
  obtain ⟨ent, hexecuting⟩ := ne_none_iff_exists'.mp henabled
  have hrep' := hrep.returnFromAlarm hexecuting
  refine ⟨{ state with g := state.g.pushFree ent, executing := none }, .ok (),
    ?_, ⟨nodes, ent :: free, hrep', hsorted⟩, ?_⟩
  · rw [exec, hexecuting]
    rfl
  · rw [hrep'.alarmSet_eq, hrep.alarmSet_eq]
    exact .callReturns

end

end Calls

theorem AlarmCall.correct_iff {state : AlarmState} (hwf : state.WellFormed)
    (hclose : TimesClose state.times) (call : AlarmCall)
    (hnext : ∀ next, call.apply state = some next → TimesClose next.times) :
    call.Correct state ↔ call.Safe state := by
  obtain ⟨nodes, free, hrep, hsorted⟩ := hwf
  cases call with
  | scheduleAlarm func param runAfter =>
    exact correct_scheduleAlarm_iff hrep hsorted func param runAfter hnext
  | cancelAlarm func param =>
    exact iff_of_true (correct_cancelAlarm hrep hsorted func param) fun _ => trivial
  | enterLoop =>
    refine iff_of_true (fun _ => ?_) fun _ => trivial
    exact ⟨_, _, rfl, ⟨nodes, free, ⟨hrep.queue, hrep.freelist,
      hrep.partition⟩, hsorted⟩, .enter⟩
  | callAlarm => exact correct_callAlarm_iff hrep hsorted hclose
  | returnFromAlarm =>
    exact iff_of_true (correct_returnFromAlarm hrep hsorted) fun _ => trivial
  | leaveLoop =>
    refine iff_of_true (fun _ => ?_) fun _ => trivial
    exact ⟨_, _, rfl, ⟨nodes, free, ⟨hrep.queue, hrep.freelist,
      hrep.partition⟩, hsorted⟩, .leave⟩
  | advanceTimer ticks =>
    refine iff_of_true (fun _ => ?_) fun _ => trivial
    exact ⟨_, _, rfl, ⟨nodes, free, ⟨hrep.queue, hrep.freelist,
      hrep.partition⟩, hsorted⟩, .advance ticks⟩

theorem AlarmCall.Correct.wellFormed {state next : AlarmState} {call : AlarmCall}
    (hcorrect : call.Correct state) (hstep : call.apply state = some next) :
    next.WellFormed := by
  rw [apply] at hstep
  split at hstep
  · rename_i henabled
    obtain ⟨next', ret, hexec, hwf, -⟩ := hcorrect henabled
    rw [hexec] at hstep
    obtain rfl := some.inj hstep
    exact hwf
  · contradiction

theorem schedInit_free (timer : UInt16) (n : ℕ) :
    ((TmGlobals.zeroed timer).schedInit n).tmQueue.head = none ∧
      Chain ((TmGlobals.zeroed timer).schedInit n).tmQueue.next
        ((TmGlobals.zeroed timer).schedInit n).tmFreelist
        (List.range n).reverse := by
  induction n with
  | zero => exact ⟨rfl, rfl⟩
  | succ n ih =>
    refine ⟨ih.1, ?_⟩
    rw [range_succ, reverse_append]
    apply ih.2.push
    simp

theorem wellFormed_start (timer : UInt16) : (AlarmState.start timer).WellFormed := by
  obtain ⟨hhead, hfree⟩ := schedInit_free timer schedulerQSize
  refine ⟨[], (List.range schedulerQSize).reverse, ?_, List.Pairwise.nil⟩
  refine ⟨⟨hhead, trivial⟩, hfree, ?_⟩
  rw [nil_append]
  change ((List.range schedulerQSize).reverse ++ []).Perm _
  rw [append_nil]
  exact reverse_perm _

theorem alongRun_alarm_correct_iff
    {state : AlarmState} (hwf : state.WellFormed) (calls : List AlarmCall)
    (hclose : EveryState apply (fun state => TimesClose state.times) state calls) :
    AlongRun apply (fun state call => call.Correct state) state calls ↔
      AlongRun apply (fun state call => call.Safe state) state
        calls := by
  refine @alongRun_congr_within _ _ _ _ _ AlarmState.WellFormed
    (fun state => TimesClose state.times) ?_ ?_ _ _ hwf hclose
  · intro state call hwf hclose hnext
    exact correct_iff hwf hclose call hnext
  · intro state call next hwf hclose hnext hsafe hstep
    refine AlarmCall.Correct.wellFormed ?_ hstep
    refine (correct_iff hwf hclose call ?_).mpr hsafe
    intro next' hstep'
    obtain rfl := some.inj (hstep.symm.trans hstep')
    exact hnext

/-- As long as the times stay close, all calls from the initialization on are
correct exactly if they are safe. -/
theorem alarms_correct_iff (timer : UInt16) (calls : List AlarmCall)
    (hclose : EveryState apply
      (fun state => TimesClose state.times) (.start timer) calls) :
    AlongRun apply (fun state call => call.Correct state) (.start timer) calls ↔
      AlongRun apply (fun state call => call.Safe state) (.start timer) calls :=
  alongRun_alarm_correct_iff (wellFormed_start timer) calls hclose

/-- Two alarms, of which the second comes first; its callback schedules it
again and cancels the other one. -/
theorem alarms_correct_iff_rescheduled :
    AlongRun apply (fun state call => call.Correct state) (.start 65530)
      [.scheduleAlarm 1 7 10, .scheduleAlarm 2 8 6, .advanceTimer 6, .enterLoop,
        .callAlarm, .scheduleAlarm 2 8 6, .cancelAlarm 1 zbAlarmAnyParam,
        .returnFromAlarm, .leaveLoop, .advanceTimer 6, .enterLoop, .callAlarm] :=
  (alarms_correct_iff _ _ (by decide +kernel)).mpr (by decide +kernel)

/-- An alarm which is due at once is put behind one which is due
`ZB_HALF_MAX_TIME_VAL` later. -/
theorem not_correct_of_overlooked :
    EveryState apply (fun state => TimesClose state.times) (.start 0)
        [.scheduleAlarm 1 0 32767, .scheduleAlarm 2 0 0] ∧
      ¬ AlongRun apply (fun state call => call.Correct state)
        (.start 0) [.scheduleAlarm 1 0 32767, .scheduleAlarm 2 0 0] := by
  have hclose : EveryState apply (fun state => TimesClose state.times) (.start 0)
      [.scheduleAlarm 1 0 32767, .scheduleAlarm 2 0 0] := by
    decide +kernel
  refine ⟨hclose, ?_⟩
  rw [alongRun_alarm_correct_iff (wellFormed_start 0) _ hclose]
  decide +kernel

end Zboss
