import Zboss.AlarmOrder

/-!
# The alarms as a set

The purpose of the queue of alarms, stated without links: a multiset to which
`zb_schedule_alarm` adds, from which `zb_schedule_alarm_cancel` removes, and of
which the main loop calls those whose time has come.
-/

namespace Zboss

open DoublyLinked LinkedChain TransitionSystem List

structure AlarmSet where
  pending : Multiset TmQEnt
  running : Option TmQEnt
  clock : UInt16

inductive AlarmSet.Step (alarms : AlarmSet) :
    AlarmCall → Except RetError Unit → AlarmSet → Prop
  | schedule (func : ℕ) (param : UInt8) (runAfter : UInt16)
      (hroom : alarms.pending.card + alarms.running.toList.length < schedulerQSize) :
      Step alarms (.scheduleAlarm func param runAfter) (.ok ())
        { alarms with
          pending := ⟨func, param, alarms.clock + runAfter⟩ ::ₘ alarms.pending }
  | full (func : ℕ) (param : UInt8) (runAfter : UInt16)
      (hfull : alarms.pending.card + alarms.running.toList.length = schedulerQSize) :
      Step alarms (.scheduleAlarm func param runAfter) (.error .overflow) alarms
  | cancelAll (func : ℕ) (hsome : ∃ alarm ∈ alarms.pending, alarm.func = func) :
      Step alarms (.cancelAlarm func zbAlarmAllCb) (.ok ())
        { alarms with
          pending := alarms.pending.filter fun alarm => alarm.func ≠ func }
  | cancelOne (func : ℕ) (param : UInt8) (hone : param ≠ zbAlarmAllCb)
      (alarm : TmQEnt) (hmem : alarm ∈ alarms.pending)
      (hmatch : alarm.isCancelledBy func param) :
      Step alarms (.cancelAlarm func param) (.ok ())
        { alarms with pending := alarms.pending.erase alarm }
  | cancelNone (func : ℕ) (param : UInt8)
      (hnone : ∀ alarm ∈ alarms.pending, ¬ alarm.isCancelledBy func param) :
      Step alarms (.cancelAlarm func param) (.error .notFound) alarms
  | enter : Step alarms .enterLoop (.ok ()) alarms
  | call (alarm : TmQEnt) (hmem : alarm ∈ alarms.pending)
      (hreached : NotBefore alarms.clock alarm.runTime) :
      Step alarms .callAlarm (.ok ())
        { alarms with
          pending := alarms.pending.erase alarm
          running := some alarm }
  | callReturns :
      Step alarms .returnFromAlarm (.ok ()) { alarms with running := none }
  | leave : Step alarms .leaveLoop (.ok ()) alarms
  | advance (ticks : UInt16) : Step alarms (.advanceTimer ticks) (.ok ())
        { alarms with clock := alarms.clock + ticks }

def AlarmState.queued (state : AlarmState) : List ℕ :=
  nodesFrom state.g.tmQueue.next schedulerQSize state.g.tmQueue.head

def AlarmState.times (state : AlarmState) : List UInt16 :=
  state.g.timer :: state.queued.map state.g.runTime

def AlarmState.alarmSet (state : AlarmState) : AlarmSet where
  pending := state.queued.map state.g.tmBuffer
  running := state.executing.map state.g.tmBuffer
  clock := state.g.timer

/-- The queue, the free list and the entry whose callback is running share the
entries of `tm_buffer`. -/
structure AlarmRep (state : AlarmState) (nodes free : List ℕ) : Prop where
  queue : state.g.tmQueue.Holds nodes
  freelist : Chain state.g.tmQueue.next state.g.tmFreelist free
  partition : (nodes ++ free ++ state.executing.toList).Perm (List.range schedulerQSize)

def AlarmState.WellFormed (state : AlarmState) : Prop :=
  ∃ nodes free, AlarmRep state nodes free ∧ Sorted state.g.runTime nodes

/-- A call which may come next returns, leaves the queue as it should be, and
does to the alarms what it is for. -/
def AlarmCall.Correct (state : AlarmState) (call : AlarmCall) : Prop :=
  call.Enabled state → ∃ next ret, call.exec state = some (next, ret) ∧ next.WellFormed ∧
      state.alarmSet.Step call ret next.alarmSet

theorem AlarmRep.length_le {state : AlarmState} {nodes free : List ℕ}
    (hrep : AlarmRep state nodes free) :
    nodes.length + free.length + state.executing.toList.length =
      schedulerQSize := by
  have hlength := hrep.partition.length_eq
  rw [length_append, length_append, length_range] at hlength
  exact hlength

theorem AlarmRep.queued_eq {state : AlarmState} {nodes free : List ℕ}
    (hrep : AlarmRep state nodes free) :
    state.queued = nodes := by
  apply nodesFrom_of_chain hrep.queue.chain
  have := hrep.length_le
  omega

theorem AlarmRep.nodup {state : AlarmState} {nodes free : List ℕ}
    (hrep : AlarmRep state nodes free) :
    (nodes ++ free ++ state.executing.toList).Nodup :=
  hrep.partition.nodup_iff.mpr nodup_range

theorem insertTmq_spec {g : TmGlobals} {nent : ℕ} {nodes : List ℕ}
    (hqueue : g.tmQueue.Holds nodes) (hnent : nent ∉ nodes)
    (hlength : nodes.length ≤ schedulerQSize) :
    ∃ tmQueue, insertTmq g nent = some tmQueue ∧
      tmQueue.Holds (insertByTime g.runTime nent nodes) ∧
        ∀ y, y ≠ nent → y ∉ nodes → tmQueue.next y = g.tmQueue.next y := by
  have hothers : ∀ y, y ≠ nent → y ∉ nodes →
      (g.insertTmqHead nent).next y = g.tmQueue.next y := by
    intro y hy _
    rw [TmGlobals.insertTmqHead, DList.insertHead_next]
    exact Function.update_of_ne hy _ _
  have hinsertHead := hqueue.insertHead hnent
  have hsearch := searchFrom_of_chain
    (fun ent => zbTimeGe (g.runTime nent) (g.runTime ent)) hqueue.chain
    (Nat.lt_succ_of_le hlength)
  unfold insertTmq
  rw [hqueue.head_eq] at hsearch ⊢
  cases nodes with
  | nil => exact ⟨_, rfl, hinsertHead, hothers⟩
  | cons head rest =>
    rw [insertByTime]
    dsimp only [List.head?_cons] at hsearch ⊢
    by_cases hfront : zbTimeGe (g.runTime head) (g.runTime nent)
    · rw [if_pos hfront, if_pos hfront]
      exact ⟨_, rfl, hinsertHead, hothers⟩
    · rw [if_neg hfront, if_neg hfront, hsearch]
      dsimp only [Option.bind_eq_bind, Option.bind_some]
      have hsplit := takeWhile_append_dropWhile
        (p := fun ent => zbTimeGe (g.runTime nent) (g.runTime ent))
        (l := head :: rest)
      generalize (head :: rest).takeWhile (fun ent =>
        zbTimeGe (g.runTime nent) (g.runTime ent)) = earlier at hsplit ⊢
      generalize (head :: rest).dropWhile (fun ent =>
        zbTimeGe (g.runTime nent) (g.runTime ent)) = later at hsplit ⊢
      cases later with
      | nil =>
        rw [append_nil] at hsplit
        have hne : earlier ≠ [] := by
          rw [hsplit]
          exact cons_ne_nil _ _
        rw [if_neg hne, hsplit]
        exact hqueue.insertTail hnent
      | cons ent others =>
        rw [← hsplit] at hqueue hnent ⊢
        have hprev := hqueue.prev_eq
        rcases eq_nil_or_concat earlier with
          rfl | ⟨start, preceding, hconcat⟩
        · -- the previous link of the first entry is the last one
          obtain ⟨start, last, hlast⟩ :=
            (eq_nil_or_concat (ent :: others)).resolve_left (cons_ne_nil _ _)
          rw [concat_eq_append] at hlast
          rw [nil_append, hlast] at hqueue hnent
          rw [hlast] at hprev
          rw [if_pos (by rfl), nil_append]
          dsimp only [List.head?_cons]
          rw [hprev, List.getLast?_concat]
          dsimp only [List.getLast?_nil, Option.none_or]
          rw [hlast, append_assoc]
          exact hqueue.insertAfter hnent
        · rw [concat_eq_append] at hconcat
          subst hconcat
          rw [if_neg (by simp)]
          dsimp only [List.head?_cons]
          rw [hprev, List.getLast?_concat]
          dsimp only [Option.some_or]
          rw [append_assoc] at hqueue hnent ⊢
          rw [append_assoc]
          exact hqueue.insertAfter hnent

theorem AlarmRep.zbScheduleAlarm {state : AlarmState} {nodes free : List ℕ} {nent : ℕ}
    (hrep : AlarmRep state nodes (nent :: free))
    (func : ℕ) (param : UInt8) (runAfter : UInt16) :
    ∃ g, zbScheduleAlarm state.g func param runAfter = some (g, .ok ()) ∧
      g.tmBuffer = Function.update state.g.tmBuffer nent
          ⟨func, param, state.g.timer + runAfter⟩ ∧
      g.timer = state.g.timer ∧
        AlarmRep { state with g := g } (insertByTime g.runTime nent nodes)
          free := by
  have hnodup := hrep.nodup
  rw [append_assoc] at hnodup
  obtain ⟨-, hothers, hdisjoint⟩ := nodup_append.mp hnodup
  rw [cons_append, nodup_cons] at hothers
  have hnent : nent ∉ nodes := fun hmem => hdisjoint nent hmem nent (by simp) rfl
  have hlength : nodes.length ≤ schedulerQSize := by
    have := hrep.length_le
    omega
  obtain ⟨hfree, hrest⟩ := hrep.freelist
  obtain ⟨tmQueue, hinsert, hqueue, hnext⟩ :=
    @insertTmq_spec
      { state.g with
        tmFreelist := state.g.tmQueue.next nent
        tmBuffer :=
          Function.update state.g.tmBuffer nent ⟨func, param, state.g.timer + runAfter⟩ }
      nent nodes hrep.queue hnent hlength
  unfold Zboss.zbScheduleAlarm
  rw [hfree]
  dsimp only
  rw [hinsert]
  refine ⟨_, rfl, rfl, rfl, hqueue, ?_, ?_⟩
  · apply hrest.congr
    intro y hy
    apply hnext
    · rintro rfl
      exact hothers.1 (mem_append_left _ hy)
    · intro hmem
      exact hdisjoint y hmem y (by simp [hy]) rfl
  · refine List.Perm.trans ?_ hrep.partition
    rw [append_assoc, append_assoc, cons_append]
    refine List.Perm.trans ?_ perm_middle.symm
    exact (insertByTime_perm _ nent nodes).append_right _

def keptBy (tmBuffer : ℕ → TmQEnt) (func : ℕ) (param : UInt8) (nodes : List ℕ) : List ℕ :=
  if param = zbAlarmAllCb then
    nodes.filter fun ent => !(tmBuffer ent).isCancelledBy func param
  else nodes.eraseP fun ent => (tmBuffer ent).isCancelledBy func param

theorem alarmRep_pushFree {state : AlarmState} {nodes free : List ℕ} {ent : ℕ}
    {executing : Option ℕ}
    (hqueue : state.g.tmQueue.Holds nodes)
    (hfree : Chain state.g.tmQueue.next state.g.tmFreelist free)
    (hpartition : (nodes ++ ent :: free ++ executing.toList).Perm
      (List.range schedulerQSize)) :
    AlarmRep { state with g := state.g.pushFree ent, executing := executing }
      nodes (ent :: free) := by
  have hnodup : (nodes ++ ent :: free ++ executing.toList).Nodup :=
    hpartition.nodup_iff.mpr nodup_range
  obtain ⟨-, hent, hdisjoint⟩ := nodup_append.mp (nodup_append.mp hnodup).1
  refine ⟨⟨?_, hqueue.back⟩, ?_, hpartition⟩
  · apply hqueue.chain.update
    exact fun hmem => hdisjoint ent hmem ent mem_cons_self rfl
  · exact hfree.push (nodup_cons.mp hent).1

theorem AlarmRep.cancelFrom {state : AlarmState} {passed nodes free : List ℕ} {fuel : ℕ}
    {g : TmGlobals} {ret : Except RetError Unit}
    (func : ℕ) (param : UInt8)
    (hrep : AlarmRep { state with g := g } (passed ++ nodes) free)
    (hfuel : nodes.length < fuel) :
    ∃ g' free', cancelFrom func param fuel nodes.head? (g, ret) =
        some (g', if nodes.any fun ent =>
          (g.tmBuffer ent).isCancelledBy func param then .ok () else ret) ∧
      g'.tmBuffer = g.tmBuffer ∧ g'.timer = g.timer ∧
        AlarmRep { state with g := g' }
          (passed ++ keptBy g.tmBuffer func param nodes) free' := by
  induction nodes generalizing passed free fuel g ret with
  | nil =>
    obtain ⟨n, rfl⟩ := Nat.exists_eq_add_of_lt hfuel
    refine ⟨g, free, by simp [Zboss.cancelFrom], rfl, rfl, ?_⟩
    simpa [keptBy] using hrep
  | cons ent rest ih =>
    cases fuel with
    | zero => exact absurd hfuel (Nat.not_lt_zero _)
    | succ fuel =>
      have hnext : g.tmQueue.next ent = rest.head? := hrep.queue.next_eq
      have hrestfuel : rest.length < fuel := Nat.lt_of_succ_lt_succ hfuel
      rw [List.head?_cons, Zboss.cancelFrom, hnext]
      dsimp only
      by_cases hmatch : (g.tmBuffer ent).isCancelledBy func param
      · obtain ⟨tmQueue, hremove, hqueue, hothers⟩ := hrep.queue.remove
        have hfree : Chain tmQueue.next g.tmFreelist free := by
          apply hrep.freelist.congr
          intro y hy
          apply hothers
          intro hmem
          exact (nodup_append.mp (nodup_append.mp
            hrep.nodup).1).2.2 y (mem_append_left _ hmem) y hy rfl
        have hrep' : AlarmRep
            { state with
              g := { g with tmQueue := tmQueue }.pushFree ent }
            (passed ++ rest) (ent :: free) := by
          refine @alarmRep_pushFree
            { state with g := { g with tmQueue := tmQueue } } _ _ _ _
            hqueue hfree ?_
          refine List.Perm.trans ?_ hrep.partition
          simp only [append_assoc, cons_append]
          refine List.Perm.append_left passed ?_
          exact perm_middle
        rw [if_pos hmatch, hremove]
        dsimp only [Option.bind_eq_bind, Option.bind_some]
        by_cases hall : param = zbAlarmAllCb
        · subst hall
          obtain ⟨g', free', hcancel, hbuffer, htimer, hrep''⟩ :=
            @ih _ _ _ _ (.ok ()) hrep' hrestfuel
          rw [if_neg (not_not_intro rfl), hcancel]
          refine ⟨g', free', by simp [hmatch], hbuffer, htimer, ?_⟩
          simpa [keptBy, hmatch, TmGlobals.pushFree] using hrep''
        · rw [if_pos hall]
          refine ⟨{ g with tmQueue := tmQueue }.pushFree ent, ent :: free,
            by simp [hmatch], rfl, rfl, ?_⟩
          simpa [keptBy, hall, hmatch] using hrep'
      · have hpassed : AlarmRep { state with g := g }
            ((passed ++ [ent]) ++ rest) free := by
          simpa using hrep
        obtain ⟨g', free', hcancel, hbuffer, htimer, hrep'⟩ :=
          @ih _ _ _ _ ret hpassed hrestfuel
        rw [if_neg hmatch, hcancel]
        refine ⟨g', free', by simp [hmatch], hbuffer, htimer, ?_⟩
        simpa [keptBy, hmatch, apply_ite] using hrep'

theorem keptBy_sublist
    (tmBuffer : ℕ → TmQEnt) (func : ℕ) (param : UInt8) (nodes : List ℕ) :
    (keptBy tmBuffer func param nodes).Sublist nodes := by
  unfold keptBy
  split
  · exact filter_sublist
  · exact eraseP_sublist

theorem isCancelledBy_all (ent : TmQEnt) (func : ℕ) :
    ent.isCancelledBy func zbAlarmAllCb = decide (ent.func = func) := by
  have hall : decide (zbAlarmAllCb = zbAlarmAllCb) = true := by decide
  rw [TmQEnt.isCancelledBy, hall, Bool.or_true, Bool.true_or, Bool.and_true]

theorem step_cancelAlarm {alarms next : AlarmSet} {tmBuffer : ℕ → TmQEnt} {nodes : List ℕ}
    (func : ℕ) (param : UInt8)
    (hpending : alarms.pending = nodes.map tmBuffer)
    (hnext : next =
      { alarms with pending := (keptBy tmBuffer func param nodes).map tmBuffer }) :
    alarms.Step (.cancelAlarm func param)
      (if nodes.any fun ent => (tmBuffer ent).isCancelledBy func param
        then .ok () else .error .notFound) next := by
  subst hnext
  by_cases hany : nodes.any fun ent => (tmBuffer ent).isCancelledBy func param
  · rw [if_pos hany]
    obtain ⟨ent, hent, hmatch⟩ := any_eq_true.mp hany
    unfold keptBy
    by_cases hall : param = zbAlarmAllCb
    · subst hall
      rw [if_pos rfl]
      have hkept : ((nodes.filter fun ent =>
          !(tmBuffer ent).isCancelledBy func zbAlarmAllCb).map tmBuffer :
            Multiset TmQEnt) =
          alarms.pending.filter fun alarm => alarm.func ≠ func := by
        rw [hpending, Multiset.filter_coe, filter_map]
        simp only [isCancelledBy_all]
        congr 3
        funext ent
        simp
      rw [hkept]
      apply AlarmSet.Step.cancelAll
      refine ⟨tmBuffer ent, ?_, ?_⟩
      · rw [hpending]
        exact mem_map_of_mem hent
      · rw [isCancelledBy_all] at hmatch
        exact of_decide_eq_true hmatch
    · rw [if_neg hall]
      obtain ⟨found, before, after, -, hfound, hsplit, herase⟩ :=
        exists_of_eraseP
          (p := fun ent => (tmBuffer ent).isCancelledBy func param) hent hmatch
      have hkept : ((nodes.eraseP fun ent =>
          (tmBuffer ent).isCancelledBy func param).map tmBuffer :
            Multiset TmQEnt) = alarms.pending.erase (tmBuffer found) := by
        have hperm : ((before ++ found :: after).map tmBuffer : Multiset TmQEnt) =
            tmBuffer found ::ₘ ((before ++ after).map tmBuffer : List TmQEnt) :=
          Multiset.coe_eq_coe.mpr (perm_middle.map tmBuffer)
        rw [hpending, herase, hsplit, hperm, Multiset.erase_cons_head]
      rw [hkept]
      apply AlarmSet.Step.cancelOne func param hall _ _ hfound
      rw [hpending, hsplit]
      exact mem_map_of_mem (by simp)
  · rw [if_neg hany]
    have hnone : ∀ ent ∈ nodes, ¬ (tmBuffer ent).isCancelledBy func param := by
      intro ent hent hmatch
      exact hany (any_eq_true.mpr ⟨ent, hent, hmatch⟩)
    have hkept : keptBy tmBuffer func param nodes = nodes := by
      unfold keptBy
      split
      · apply filter_eq_self.mpr
        intro ent hent
        simpa using hnone ent hent
      · exact eraseP_of_forall_not hnone
    rw [hkept, ← hpending]
    apply AlarmSet.Step.cancelNone
    intro alarm halarm
    rw [hpending] at halarm
    obtain ⟨ent, hent, rfl⟩ := mem_map.mp halarm
    exact hnone ent hent

end Zboss
