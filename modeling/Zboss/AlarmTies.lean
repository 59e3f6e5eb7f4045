import Zboss.AlarmCorrectness

/-!
# Alarms which are due at the same time

A new alarm goes in front of the first one of the queue if it is not after it,
so also if both are due at the same time.  Everywhere else it goes behind the
alarms which are due when it is.
-/

namespace Zboss

open Function Option List TransitionSystem

/-- `serial` tells in which order the alarms of the entries were scheduled. -/
structure AlarmHistory where
  state : AlarmState
  serial : ℕ → ℕ
  count : ℕ

def AlarmState.due (state : AlarmState) (runAfter : UInt16) : UInt16 :=
  state.g.timer + runAfter

/-- The place of an alarm which is due then is not in front of one which is due
at the same time. -/
def AlarmState.KeepsTies (state : AlarmState) (due : UInt16) : Prop :=
  ∀ head ∈ state.queued.head?, if zbTimeGe (state.g.runTime head) due then
      ∀ ent ∈ state.queued, state.g.runTime ent ≠ due
    else
      zbTimeGe due (state.g.runTime head) → state.queued.Pairwise fun x y =>
          state.g.runTime y = due → zbTimeGe due (state.g.runTime x)

def AlarmCall.KeepsTies (state : AlarmState) (call : AlarmCall) : Prop :=
  match call with
  | scheduleAlarm _ _ runAfter =>
      call.Enabled state → state.g.tmFreelist ≠ none → state.KeepsTies (state.due runAfter)
  | _ => True

namespace AlarmHistory

def start (timer : UInt16) : AlarmHistory where
  state := .start timer
  serial _ := 0
  count := 0

def step (history : AlarmHistory) (call : AlarmCall) : Option AlarmHistory := do
  let next ← call.apply history.state
  match call, history.state.g.tmFreelist with
  | .scheduleAlarm _ _ _, some nent =>
      return {
        state := next
        serial := update history.serial nent history.count
        count := history.count + 1 }
  | _, _ => return { history with state := next }

/-- Of two pending alarms which are due at the same time, the one which was
scheduled first comes first. -/
def InTurn (history : AlarmHistory) : Prop :=
  history.state.queued.Pairwise fun x y =>
    history.state.g.runTime x = history.state.g.runTime y →
      history.serial x < history.serial y

instance decidableInTurn (history : AlarmHistory) :
    Decidable history.InTurn :=
  inferInstanceAs (Decidable (List.Pairwise _ _))

def Numbered (history : AlarmHistory) : Prop :=
  (∃ nodes free, AlarmRep history.state nodes free) ∧
    ∀ ent ∈ history.state.queued, history.serial ent < history.count

end AlarmHistory

section Places

variable {runTime : ℕ → UInt16} {due : UInt16} {nent : ℕ} {nodes : List ℕ}

def behindPlace (runTime : ℕ → UInt16) (due : UInt16) : List ℕ → List ℕ
  | [] => []
  | head :: rest =>
      if zbTimeGe (runTime head) due then head :: rest
      else if zbTimeGe due (runTime head) then
        (head :: rest).dropWhile fun ent => zbTimeGe due (runTime ent)
      else []

theorem insertByTime_eq_append (hdue : runTime nent = due) :
    ∃ before, nodes = before ++ behindPlace runTime due nodes ∧
      insertByTime runTime nent nodes =
        before ++ nent :: behindPlace runTime due nodes := by
  cases nodes with
  | nil => exact ⟨[], rfl, rfl⟩
  | cons head rest =>
    rw [insertByTime, behindPlace, hdue]
    split
    case isTrue => exact ⟨[], rfl, rfl⟩
    case isFalse =>
      by_cases hpass : zbTimeGe due (runTime head)
      · have hne : (head :: rest).takeWhile
            (fun ent => zbTimeGe due (runTime ent)) ≠ [] := by
          rw [takeWhile_cons, if_pos hpass]
          exact cons_ne_nil _ _
        rw [if_neg hne, if_pos hpass]
        exact ⟨_, takeWhile_append_dropWhile.symm, rfl⟩
      · have hnil : (head :: rest).takeWhile
            (fun ent => zbTimeGe due (runTime ent)) = [] := by
          rw [takeWhile_cons, if_neg hpass]
        rw [if_pos hnil, if_neg hpass]
        exact ⟨head :: rest, (append_nil _).symm, rfl⟩

theorem behindPlace_congr
    {other : ℕ → UInt16} (hsame : ∀ ent ∈ nodes, runTime ent = other ent) :
    behindPlace runTime due nodes = behindPlace other due nodes := by
  have hdrop : ∀ {l : List ℕ}, (∀ ent ∈ l, runTime ent = other ent) →
      (l.dropWhile fun ent => zbTimeGe due (runTime ent)) =
        l.dropWhile fun ent => zbTimeGe due (other ent) := by
    intro l hl
    induction l with
    | nil => rfl
    | cons x rest ih =>
      rw [dropWhile_cons, dropWhile_cons, hl x mem_cons_self,
        ih fun y hy => hl y (mem_cons_of_mem _ hy)]
  cases nodes with
  | nil => rfl
  | cons head rest => rw [behindPlace, behindPlace, hsame head mem_cons_self, hdrop hsame]

theorem forall_dropWhile_iff {α : Type*} {passes : α → Bool} {tied : α → Prop} {l : List α}
    (hpasses : ∀ x ∈ l, tied x → passes x) :
    (∀ x ∈ l.dropWhile passes, ¬ tied x) ↔ l.Pairwise fun x y => tied y → passes x := by
  induction l with
  | nil => simp
  | cons x rest ih =>
    have ih := ih fun y hy => hpasses y (mem_cons_of_mem _ hy)
    rw [pairwise_cons]
    by_cases hpass : passes x
    · rw [dropWhile_cons_of_pos hpass, ih]
      exact (and_iff_right fun _ _ _ => hpass).symm
    · rw [dropWhile_cons_of_neg hpass]
      constructor
      · intro hnone
        have hrest : ∀ y ∈ rest, ¬ tied y := fun y hy => hnone y (mem_cons_of_mem _ hy)
        refine ⟨fun y hy htied => absurd htied (hrest y hy), ih.mp ?_⟩
        exact fun y hy => hrest y ((dropWhile_suffix _).subset hy)
      · rintro ⟨hfirst, -⟩ y hy htied
        obtain rfl | hrest := mem_cons.mp hy
        · exact hpass (hpasses y mem_cons_self htied)
        · exact hpass (hfirst y hrest htied)

theorem zbTimeGe_self (time : UInt16) : zbTimeGe time time := by
  rw [zbTimeGe, UInt16.sub_self]
  decide

theorem keepsTies_iff {state : AlarmState} : state.KeepsTies due ↔
      ∀ ent ∈ behindPlace state.g.runTime due state.queued, state.g.runTime ent ≠ due := by
  rw [AlarmState.KeepsTies]
  cases state.queued with
  | nil => simp [behindPlace]
  | cons head rest =>
    rw [List.head?_cons, behindPlace]
    simp only [mem_def, some.injEq, forall_eq']
    split
    case isTrue => exact Iff.rfl
    case isFalse =>
      split
      case isTrue hpass =>
        rw [forall_prop_of_true hpass]
        refine (forall_dropWhile_iff ?_).symm
        intro ent _ htied
        rw [htied]
        exact zbTimeGe_self due
      case isFalse hstop => simp [hstop]

theorem inTurn_insert_iff {serial : ℕ → ℕ} {before behind : List ℕ}
    (hold : (before ++ behind).Pairwise fun x y =>
      runTime x = runTime y → serial x < serial y)
    (hnumbered : ∀ ent ∈ before ++ behind, serial ent < serial nent) :
    ((before ++ nent :: behind).Pairwise fun x y =>
        runTime x = runTime y → serial x < serial y) ↔
      ∀ ent ∈ behind, runTime ent ≠ runTime nent := by
  obtain ⟨hbefore, hbehind, hcross⟩ := pairwise_append.mp hold
  rw [pairwise_append, pairwise_cons]
  constructor
  · rintro ⟨-, ⟨hfirst, -⟩, -⟩ ent hent htied
    have hlt := hnumbered ent (mem_append_right _ hent)
    exact Nat.lt_asymm hlt (hfirst ent hent htied.symm)
  · intro hnone
    refine ⟨hbefore, ⟨fun ent hent htied => ?_, hbehind⟩, ?_⟩
    · exact absurd htied.symm (hnone ent hent)
    · intro x hx y hy htied
      obtain rfl | hy := mem_cons.mp hy
      · exact hnumbered x (mem_append_left _ hx)
      · exact hcross x hx y hy htied

end Places

theorem AlarmRep.apply_sublist
    {state next : AlarmState} {nodes free : List ℕ} {call : AlarmCall}
    (hrep : AlarmRep state nodes free)
    (hcall : ∀ func param runAfter, call = .scheduleAlarm func param runAfter →
      state.g.tmFreelist = none)
    (hnext : call.apply state = some next) :
    ∃ nodes' free', AlarmRep next nodes' free' ∧ nodes'.Sublist nodes ∧
      next.g.runTime = state.g.runTime := by
  rw [AlarmCall.apply] at hnext
  split at hnext
  case isFalse => contradiction
  case isTrue henabled =>
    obtain ⟨⟨last, ret⟩, hexec, rfl⟩ := map_eq_some_iff.mp hnext
    dsimp only
    cases call with
    | scheduleAlarm func param runAfter =>
      have hfull := hcall func param runAfter rfl
      rw [AlarmCall.exec, Zboss.zbScheduleAlarm, hfull] at hexec
      obtain ⟨rfl, -⟩ := some_pair_inj hexec
      exact ⟨nodes, free, hrep, List.Sublist.refl _, rfl⟩
    | cancelAlarm func param =>
      obtain ⟨g, free', hcancel, hbuffer, -, hrep'⟩ := hrep.cancelAlarm func param
      obtain ⟨rfl, -⟩ := some_pair_inj (hcancel.symm.trans hexec)
      exact ⟨_, free', hrep', keptBy_sublist _ func param nodes, runTime_congr hbuffer⟩
    | callAlarm =>
      obtain ⟨hexecuting, t, -, head, hhead, -⟩ := henabled
      obtain ⟨rest, rfl⟩ := List.head?_eq_some_iff.mp (hrep.queue.head_eq.symm.trans hhead)
      obtain ⟨rfl, -⟩ := some_pair_inj hexec
      exact ⟨rest, free, (hrep.callAlarm hexecuting).2, sublist_cons_self head rest, rfl⟩
    | returnFromAlarm =>
      obtain ⟨ent, hexecuting⟩ := ne_none_iff_exists'.mp henabled
      rw [AlarmCall.exec, hexecuting] at hexec
      obtain ⟨rfl, -⟩ := some_pair_inj hexec
      exact ⟨nodes, ent :: free, hrep.returnFromAlarm hexecuting, List.Sublist.refl _, rfl⟩
    | enterLoop | leaveLoop | advanceTimer ticks =>
      obtain ⟨rfl, -⟩ := some_pair_inj hexec
      exact ⟨nodes, free, ⟨hrep.queue, hrep.freelist, hrep.partition⟩,
        List.Sublist.refl _, rfl⟩

namespace AlarmHistory

variable {history after : AlarmHistory} {call : AlarmCall}

theorem step_sublist {nodes free : List ℕ} (hrep : AlarmRep history.state nodes free)
    (hcall : ∀ func param runAfter, call = .scheduleAlarm func param runAfter →
      history.state.g.tmFreelist = none)
    (hstep : history.step call = some after) :
    (∃ nodes free, AlarmRep after.state nodes free) ∧
      after.state.queued.Sublist history.state.queued ∧
      after.state.g.runTime = history.state.g.runTime ∧
      after.serial = history.serial ∧ after.count = history.count := by
  obtain ⟨next, hnext, hafter⟩ := bind_eq_some_iff.mp hstep
  obtain ⟨nodes', free', hrep', hsublist, hrunTime⟩ := hrep.apply_sublist hcall hnext
  have heq : after = { history with state := next } := by
    revert hafter
    split
    case h_1 func param runAfter nent hfree =>
      rw [hcall func param runAfter rfl] at hfree
      contradiction
    case h_2 => exact fun hafter => (some.inj hafter).symm
  subst heq
  dsimp only
  rw [hrep.queued_eq, hrep'.queued_eq]
  exact ⟨⟨nodes', free', hrep'⟩, hsublist, hrunTime, rfl, rfl⟩

theorem step_schedule {nodes free : List ℕ} {nent : ℕ} {func : ℕ} {param : UInt8}
    {runAfter : UInt16}
    (hrep : AlarmRep history.state nodes (nent :: free))
    (hnumbered : ∀ ent ∈ nodes, history.serial ent < history.count)
    (hstep : history.step (.scheduleAlarm func param runAfter) = some after) :
    after.Numbered ∧ (history.InTurn → (after.InTurn ↔
      history.state.KeepsTies (history.state.due runAfter))) := by
  obtain ⟨next, hnext, hafter⟩ := bind_eq_some_iff.mp hstep
  obtain ⟨last, hexec, hrep', hnew, hothers, -, -⟩ :=
    scheduleAlarm_effect hrep func param runAfter
  rw [AlarmCall.apply] at hnext
  split at hnext
  case isFalse => contradiction
  case isTrue =>
    rw [hexec, map_some] at hnext
    obtain rfl := some.inj hnext
    rw [hrep.freelist.1] at hafter
    obtain rfl := some.inj hafter
    have hnotMem : nent ∉ nodes := by
      have hnodup := hrep.nodup
      rw [append_assoc] at hnodup
      exact fun hmem => (nodup_append.mp hnodup).2.2 nent hmem nent (by simp) rfl
    obtain ⟨before, hsplit, hinsert⟩ := @insertByTime_eq_append _ _ nent nodes hnew
    rw [hinsert] at hrep'
    have hserial : ∀ ent ∈ nodes, update history.serial nent history.count ent =
          history.serial ent := by
      intro ent hent
      apply update_of_ne
      rintro rfl
      exact hnotMem hent
    constructor
    · refine ⟨⟨_, free, hrep'⟩, ?_⟩
      dsimp only
      rw [hrep'.queued_eq]
      intro ent hent
      have hcases : ent = nent ∨ ent ∈ nodes := by
        rw [hsplit]
        simpa [or_left_comm] using hent
      obtain rfl | hold := hcases
      · rw [update_self]
        exact Nat.lt_succ_self _
      · rw [hserial ent hold]
        exact Nat.lt_succ_of_lt (hnumbered ent hold)
    · intro hturn
      rw [InTurn, hrep.queued_eq] at hturn
      rw [InTurn, hrep'.queued_eq, keepsTies_iff, hrep.queued_eq,
        ← behindPlace_congr hothers]
      dsimp only
      have hold : nodes.Pairwise fun x y =>
          last.g.runTime x = last.g.runTime y →
            update history.serial nent history.count x <
              update history.serial nent history.count y := by
        refine List.Pairwise.imp_of_mem ?_ hturn
        intro x y hx hy hxy
        rw [hserial x hx, hserial y hy, hothers x hx, hothers y hy]
        exact hxy
      have hfewer : ∀ ent ∈ nodes, update history.serial nent history.count ent <
            update history.serial nent history.count nent := by
        intro ent hent
        rw [hserial ent hent, update_self]
        exact hnumbered ent hent
      rw [hsplit] at hold hfewer
      refine (inTurn_insert_iff hold hfewer).trans ?_
      refine forall₂_congr fun ent hent => ?_
      have hmem : ent ∈ nodes := by
        rw [hsplit]
        exact mem_append_right _ hent
      rw [hnew, hothers ent hmem]
      exact Iff.rfl

theorem schedules_or_not {nodes free : List ℕ}
    (hrep : AlarmRep history.state nodes free) (call : AlarmCall) :
    (∃ func param runAfter nent rest,
        call = .scheduleAlarm func param runAfter ∧ free = nent :: rest) ∨
      ∀ func param runAfter, call = .scheduleAlarm func param runAfter →
        history.state.g.tmFreelist = none := by
  cases free with
  | nil => exact .inr fun _ _ _ _ => hrep.freelist
  | cons nent rest =>
    cases call with
    | scheduleAlarm func param runAfter =>
      exact .inl ⟨func, param, runAfter, nent, rest, rfl, rfl⟩
    | _ => exact .inr fun _ _ _ hcall => nomatch hcall

theorem numbered_step
    (hnumbered : history.Numbered) (hstep : history.step call = some after) :
    after.Numbered := by
  obtain ⟨⟨nodes, free, hrep⟩, hlt⟩ := hnumbered
  obtain ⟨func, param, runAfter, nent, rest, rfl, rfl⟩ | hcall :=
    schedules_or_not hrep call
  · rw [hrep.queued_eq] at hlt
    exact (step_schedule hrep hlt hstep).1
  · obtain ⟨hrep', hsublist, -, hserial, hcount⟩ :=
      step_sublist hrep hcall hstep
    refine ⟨hrep', ?_⟩
    rw [hserial, hcount]
    exact fun ent hent => hlt ent (hsublist.subset hent)

theorem inTurn_step_iff (hturn : history.InTurn) (hnumbered : history.Numbered) :
    (∀ after, history.step call = some after → after.InTurn) ↔
      call.KeepsTies history.state := by
  obtain ⟨⟨nodes, free, hrep⟩, hlt⟩ := hnumbered
  obtain ⟨func, param, runAfter, nent, rest, rfl, rfl⟩ | hcall :=
    schedules_or_not hrep call
  · rw [hrep.queued_eq] at hlt
    have hfree : history.state.g.tmFreelist ≠ none := by
      rw [hrep.freelist.1]
      exact some_ne_none nent
    rw [AlarmCall.KeepsTies]
    constructor
    · intro hall henabled _
      obtain ⟨last, hexec, -⟩ := scheduleAlarm_effect hrep func param runAfter
      have hnext : (AlarmCall.scheduleAlarm func param runAfter).apply
          history.state = some last := by
        rw [AlarmCall.apply, if_pos henabled, hexec, map_some]
      have hstep : history.step (.scheduleAlarm func param runAfter) =
          some ⟨last, update history.serial nent history.count, history.count + 1⟩ := by
        rw [step, hnext, hrep.freelist.1]
        rfl
      exact ((step_schedule hrep hlt hstep).2 hturn).mp (hall _ hstep)
    · intro hkeeps after hstep
      refine ((step_schedule hrep hlt hstep).2 hturn).mpr (hkeeps ?_ hfree)
      obtain ⟨next, hnext, -⟩ := bind_eq_some_iff.mp hstep
      by_contra henabled
      rw [AlarmCall.apply, if_neg henabled] at hnext
      contradiction
  · refine iff_of_true (fun after hstep => ?_) ?_
    · obtain ⟨-, hsublist, hrunTime, hserial, -⟩ :=
        step_sublist hrep hcall hstep
      rw [InTurn, hrunTime, hserial]
      exact hturn.sublist hsublist
    · cases call with
      | scheduleAlarm func param runAfter =>
        exact fun _ hfree => absurd (hcall func param runAfter rfl) hfree
      | _ => trivial

theorem queued_start (timer : UInt16) : (start timer).state.queued = [] := by
  have hhead : (start timer).state.g.tmQueue.head = none :=
    (schedInit_free timer schedulerQSize).1
  rw [AlarmState.queued, hhead]
  rfl

theorem numbered_start (timer : UInt16) : (start timer).Numbered := by
  obtain ⟨nodes, free, hrep, -⟩ := wellFormed_start timer
  refine ⟨⟨nodes, free, hrep⟩, ?_⟩
  rw [queued_start]
  exact fun ent hent => absurd hent not_mem_nil

/-- From the initialization on, alarms which are due at the same time are in
the order in which they were scheduled exactly if every call keeps it. -/
theorem everyState_inTurn_iff (timer : UInt16) (calls : List AlarmCall) :
    EveryState step InTurn (start timer) calls ↔
      AlongRun step (fun history call => call.KeepsTies history.state)
        (start timer) calls := by
  refine @everyState_iff_alongRun _ _ step
    (fun history call => call.KeepsTies history.state) InTurn Numbered ?_ ?_
    (start timer) calls ?_ (numbered_start timer)
  · exact fun _ _ hturn hnumbered => inTurn_step_iff hturn hnumbered
  · exact fun _ _ _ _ hnumbered _ hstep => numbered_step hnumbered hstep
  · rw [InTurn, queued_start]
    exact List.Pairwise.nil

/-- Two alarms which are due at the same time, with nothing else in the queue;
the second one goes in front of the first one. -/
theorem not_everyState_inTurn_twoAlarms : ¬ EveryState step InTurn (start 0)
      [.scheduleAlarm 1 7 10, .scheduleAlarm 2 8 10] := by
  decide +kernel

end AlarmHistory

end Zboss
