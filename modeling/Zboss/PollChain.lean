import Zboss.TransitionSystem
import Mathlib.Data.UInt

/-!
# The chain of polls

A sleepy device polls its parent: an alarm for `zb_zdo_poll_parent`, a request
for a buffer, a request to synchronise and its confirm, after which the alarm is
set again.  `inside_poll` is set when the buffer arrives.
-/

namespace Zboss

open Option

/-- How many there are of each: alarms for `zb_zdo_poll_parent`, its requests
for a buffer which wait or have been granted, scheduled calls of
`zb_nlme_sync_request`, polls at the MAC layer, and scheduled calls of
`zb_nlme_sync_confirm`. -/
structure PollChain where
  alarms : ℕ
  waiting : ℕ
  granted : ℕ
  requested : ℕ
  polling : ℕ
  confirmed : ℕ
  insidePoll : Bool
  parentThresholdRetry : UInt8

/-- What `ZB_GET_OUT_BUF_DELAYED` ends with: the ring of callbacks and the queue
of requests may be full. -/
inductive BufferRequest where
  | queued
  | granted
  | refused

/-- `accepted` is what the scheduler answers: to a callback, or to an alarm
when none is cancelled for it. -/
inductive PollChainEvent where
  | alarm (outcome : BufferRequest)
  | freeBuf (accepted : Bool)
  | outBuf (accepted : Bool)
  | syncRequest (accepted : Bool)
  | pollConfirm (accepted : Bool)
  | syncConfirm (success accepted : Bool)
  | reschedule (accepted : Bool)

open TransitionSystem

namespace PollChain

def schedulePollAlarm (chain : PollChain) (accepted : Bool) : PollChain :=
  let cancelled := decide (0 < chain.alarms)
  let alarms := chain.alarms - 1
  { chain with
    alarms := if cancelled || accepted then alarms + 1 else alarms }

/-- `zb_zdo_reschedule_poll_parent` with `mac_rx_on_when_idle` false. -/
def zbZdoReschedulePollParent (chain : PollChain) (accepted : Bool) :
    PollChain :=
  if chain.insidePoll then chain else chain.schedulePollAlarm accepted

/-- `zb_zdo_poll_parent` without a buffer, on a joined device. -/
def requestBuffer (chain : PollChain) (outcome : BufferRequest) : PollChain :=
  match outcome with
  | .queued => { chain with waiting := chain.waiting + 1 }
  | .granted => { chain with granted := chain.granted + 1 }
  | .refused => chain

/-- `zb_zdo_poll_parent` with its buffer. -/
def zbZdoPollParent (chain : PollChain) (accepted : Bool) : PollChain :=
  { chain with
    insidePoll := true
    requested := chain.requested + accepted.toNat }

/-- `zb_nlme_sync_confirm` on a joined device, `none` if it initiates a
rejoin. -/
def zbNlmeSyncConfirm (maxParentThresholdRetry : UInt8) (chain : PollChain)
    (success accepted : Bool) : Option PollChain :=
  let chain := { chain with insidePoll := false }
  if success then some (chain.zbZdoReschedulePollParent accepted)
  else
    let chain := { chain with
      parentThresholdRetry := chain.parentThresholdRetry + 1 }
    if maxParentThresholdRetry ≤ chain.parentThresholdRetry then none
    else some (chain.zbZdoReschedulePollParent accepted)

/-- `none` if the event is not to be expected, or ends the runs of the device
on its network. -/
def step (maxParentThresholdRetry : UInt8) (chain : PollChain) :
    PollChainEvent → Option PollChain
  | .alarm outcome =>
      if 0 < chain.alarms then
        some (requestBuffer { chain with alarms := chain.alarms - 1 } outcome)
      else none
  | .freeBuf accepted =>
      if 0 < chain.waiting then
        some { chain with
          waiting := chain.waiting - 1
          granted := chain.granted + accepted.toNat }
      else none
  | .outBuf accepted =>
      if 0 < chain.granted then
        some (zbZdoPollParent { chain with granted := chain.granted - 1 }
          accepted)
      else none
  | .syncRequest accepted =>
      if 0 < chain.requested then
        some { chain with
          requested := chain.requested - 1
          polling := chain.polling + accepted.toNat }
      else none
  | .pollConfirm accepted =>
      if 0 < chain.polling then
        some { chain with
          polling := chain.polling - 1
          confirmed := chain.confirmed + accepted.toNat }
      else none
  | .syncConfirm success accepted =>
      if 0 < chain.confirmed then
        zbNlmeSyncConfirm maxParentThresholdRetry
          { chain with confirmed := chain.confirmed - 1 } success accepted
      else none
  | .reschedule accepted => some (chain.zbZdoReschedulePollParent accepted)

def joined (accepted : Bool) : PollChain :=
  zbZdoReschedulePollParent ⟨0, 0, 0, 0, 0, 0, false, 0⟩ accepted

def syncs (chain : PollChain) : ℕ :=
  chain.requested + chain.polling + chain.confirmed

def polls (chain : PollChain) : ℕ :=
  chain.alarms + (chain.waiting + chain.granted) + chain.syncs

/-- Exactly one poll is in progress: an alarm, a request for a buffer or a
request to synchronise. -/
def OnePoll (chain : PollChain) : Prop := chain.polls = 1

instance : DecidablePred OnePoll :=
  fun chain => inferInstanceAs (Decidable (chain.polls = 1))

/-- The call is accepted, or it is one of a confirm which initiates a rejoin,
and no alarm is set while the device waits for the buffer of its poll. -/
def KeepsChain (maxParentThresholdRetry : UInt8) (chain : PollChain) :
    PollChainEvent → Prop
  | .alarm outcome => 0 < chain.alarms → outcome ≠ .refused
  | .freeBuf accepted => 0 < chain.waiting → accepted = true
  | .outBuf accepted => 0 < chain.granted → accepted = true
  | .syncRequest accepted => 0 < chain.requested → accepted = true
  | .pollConfirm accepted => 0 < chain.polling → accepted = true
  | .syncConfirm success accepted => 0 < chain.confirmed →
      accepted = true ∨ (success = false ∧
        maxParentThresholdRetry ≤ chain.parentThresholdRetry + 1)
  | .reschedule accepted => chain.waiting + chain.granted = 0 ∨ accepted = false

def FlagRight (chain : PollChain) : Prop :=
  chain.insidePoll = true ↔ 0 < chain.syncs

section Steps

variable {chain next : PollChain} {accepted : Bool} {limit : UInt8}

theorem onePoll_step_iff {P : Prop} {state : PollChain} (hiff : state.OnePoll ↔ P) :
    (∀ next, some state = some next → next.OnePoll) ↔ P := by
  refine Iff.trans ⟨fun h => h _ rfl, fun h next hnext => ?_⟩ hiff
  exact some.inj hnext ▸ h

theorem onePoll_moved_iff (hone : chain.OnePoll)
    (hmoved : next.polls + 1 = chain.polls + accepted.toNat) :
    next.OnePoll ↔ accepted = true := by
  rw [OnePoll] at hone ⊢
  cases accepted <;> simp at hmoved ⊢ <;> omega

theorem polls_reschedule_of_inside (hinside : chain.insidePoll = true) :
    (chain.zbZdoReschedulePollParent accepted).polls = chain.polls := by
  rw [zbZdoReschedulePollParent, if_pos hinside]

theorem polls_reschedule_of_alarm (hinside : chain.insidePoll = false)
    (hpos : 0 < chain.alarms) :
    (chain.zbZdoReschedulePollParent accepted).polls = chain.polls := by
  rw [zbZdoReschedulePollParent, if_neg (by rw [hinside]; decide),
    schedulePollAlarm, polls, polls, decide_eq_true hpos, Bool.true_or,
    if_pos rfl, Nat.sub_add_cancel hpos]

theorem polls_reschedule_of_no_alarm (hinside : chain.insidePoll = false)
    (hnone : chain.alarms = 0) :
    (chain.zbZdoReschedulePollParent accepted).polls = chain.polls + accepted.toNat := by
  rw [zbZdoReschedulePollParent, if_neg (by rw [hinside]; decide),
    schedulePollAlarm, polls, polls, hnone]
  change _ + _ + chain.syncs = _
  cases accepted with
  | true =>
    rw [Bool.or_true, if_pos rfl, Bool.toNat_true]
    dsimp only
    omega
  | false => simp

theorem onePoll_step_exact (hone : chain.OnePoll) (hflag : chain.FlagRight)
    (event : PollChainEvent) :
    (∀ next, step limit chain event = some next → next.OnePoll) ↔
      KeepsChain limit chain event := by
  have hnone {P : Prop} (h : P) : (∀ next : PollChain,
      none = some next → next.OnePoll) ↔ P :=
    iff_of_true (fun _ hnext => absurd hnext (by simp)) h
  have hcount : chain.alarms + (chain.waiting + chain.granted) +
      (chain.requested + chain.polling + chain.confirmed) = 1 := hone
  rw [FlagRight, syncs] at hflag
  cases event with
  | alarm outcome =>
    rw [step, KeepsChain]
    split
    case isFalse hno => exact hnone fun h => absurd h hno
    case isTrue hpos =>
      refine onePoll_step_iff ?_
      cases outcome <;>
        simp only [requestBuffer, OnePoll, polls, syncs, ne_eq, reduceCtorEq,
          not_false_eq_true, not_true_eq_false, hpos, forall_const,
          iff_true, iff_false] <;> omega
  | freeBuf accepted | outBuf accepted | syncRequest accepted
  | pollConfirm accepted =>
    rw [step, KeepsChain]
    split
    case isFalse hno => exact hnone fun h => absurd h hno
    case isTrue hpos =>
      rw [forall_prop_of_true hpos]
      refine onePoll_step_iff (onePoll_moved_iff hone ?_)
      simp only [zbZdoPollParent, polls, syncs]
      omega
  | syncConfirm success accepted =>
    rw [step, KeepsChain]
    split
    case isFalse hno => exact hnone fun h => absurd h hno
    case isTrue hpos =>
      -- Only the alarm can go on with the chain.
      have hset (retry : UInt8) :
          (zbZdoReschedulePollParent { chain with
            confirmed := chain.confirmed - 1, insidePoll := false,
            parentThresholdRetry := retry } accepted).OnePoll ↔
          accepted = true := by
        refine onePoll_moved_iff hone ?_
        rw [polls_reschedule_of_no_alarm rfl (by dsimp only; omega)]
        simp only [polls, syncs]
        omega
      rw [zbNlmeSyncConfirm]
      cases success with
      | true =>
        refine (onePoll_step_iff (hset _)).trans ?_
        simp [hpos]
      | false =>
        dsimp only
        rw [if_neg (by decide)]
        split
        case isTrue hrejoin => exact hnone fun _ => .inr ⟨rfl, hrejoin⟩
        case isFalse hstays =>
          refine (onePoll_step_iff (hset _)).trans ?_
          simp [hpos, hstays]
  | reschedule accepted =>
    rw [step, KeepsChain]
    refine onePoll_step_iff ?_
    rw [OnePoll]
    cases hinside : chain.insidePoll with
    | true =>
      have hpos := hflag.mp hinside
      rw [polls_reschedule_of_inside hinside]
      exact iff_of_true hone (.inl (by omega))
    | false =>
      have hsyncs : ¬0 < chain.requested + chain.polling + chain.confirmed :=
        fun h => absurd ((hflag.mpr h).symm.trans hinside) (by decide)
      rcases Nat.eq_zero_or_pos chain.alarms with hzero | halarm
      · rw [polls_reschedule_of_no_alarm hinside hzero, show chain.polls = 1 from hone]
        cases accepted <;> simp
        omega
      · rw [polls_reschedule_of_alarm hinside halarm]
        exact iff_of_true hone (.inl (by omega))

theorem flag_reschedule (chain : PollChain) (accepted : Bool) :
    (chain.zbZdoReschedulePollParent accepted).FlagRight ↔ chain.FlagRight := by
  rw [zbZdoReschedulePollParent]
  split <;> exact Iff.rfl

theorem flagRight_step {event : PollChainEvent} (hone : chain.OnePoll)
    (hflag : chain.FlagRight) (hkeeps : KeepsChain limit chain event)
    (hstep : step limit chain event = some next) : next.FlagRight := by
  have hcount : chain.alarms + (chain.waiting + chain.granted) +
      (chain.requested + chain.polling + chain.confirmed) = 1 := hone
  rw [FlagRight, syncs] at hflag
  cases event with
  | alarm outcome =>
    obtain ⟨_, hnext⟩ := ite_none_right_eq_some.mp hstep
    obtain rfl := some.inj hnext
    cases outcome <;> exact hflag
  | freeBuf accepted =>
    obtain ⟨_, hnext⟩ := ite_none_right_eq_some.mp hstep
    exact some.inj hnext ▸ hflag
  | outBuf accepted =>
    obtain ⟨hpos, hnext⟩ := ite_none_right_eq_some.mp hstep
    obtain rfl := some.inj hnext
    obtain rfl := hkeeps hpos
    refine iff_of_true rfl ?_
    simp only [zbZdoPollParent, syncs, Bool.toNat_true]
    omega
  | syncRequest accepted | pollConfirm accepted =>
    obtain ⟨hpos, hnext⟩ := ite_none_right_eq_some.mp hstep
    obtain rfl := some.inj hnext
    obtain rfl := hkeeps hpos
    refine hflag.trans ?_
    simp only [syncs, Bool.toNat_true]
    omega
  | syncConfirm success accepted =>
    obtain ⟨hpos, hconfirm⟩ := ite_none_right_eq_some.mp hstep
    have hclear (retry : UInt8) : FlagRight { chain with
        confirmed := chain.confirmed - 1, insidePoll := false,
        parentThresholdRetry := retry } := by
      refine iff_of_false Bool.false_ne_true ?_
      simp only [syncs]
      omega
    rw [zbNlmeSyncConfirm] at hconfirm
    split at hconfirm
    · exact some.inj hconfirm ▸ (flag_reschedule _ _).mpr (hclear _)
    · dsimp only at hconfirm
      split at hconfirm
      · contradiction
      · exact some.inj hconfirm ▸ (flag_reschedule _ _).mpr (hclear _)
  | reschedule accepted => exact some.inj hstep ▸ (flag_reschedule _ _).mpr hflag

end Steps

/-- In every run after `zdo_join_done`, exactly one poll is in progress at all
times if and only if the calls are accepted and no alarm is set while the device
waits for the buffer of its poll. -/
theorem everyState_onePoll_iff (limit : UInt8) (accepted : Bool)
    (events : List PollChainEvent) :
    EveryState (step limit) OnePoll (joined accepted) events ↔ accepted = true ∧
        AlongRun (step limit) (KeepsChain limit) (joined accepted) events := by
  have hflag : (joined accepted).FlagRight :=
    (flag_reschedule _ _).mpr (iff_of_false Bool.false_ne_true (by decide))
  cases accepted with
  | false =>
      refine iff_of_false (fun hevery => ?_) fun h => absurd h.1 (by decide)
      exact absurd hevery.first (by decide)
  | true =>
      rw [and_iff_right rfl]
      exact everyState_iff_alongRun
        (fun _ event hone hright => onePoll_step_exact hone hright event)
        (fun _ _ _ hone hright hkeeps => flagRight_step hone hright hkeeps)
        (by decide) hflag

/-- A frame is sent by the device between the alarm and the grant of the buffer:
there are two chains afterwards. -/
theorem not_everyState_onePoll_rescheduled : (TransitionSystem.run (step 3) (joined true)
        [.alarm .queued, .reschedule true]).map polls = some 2 ∧
      ¬∀ limit events, EveryState (step limit) OnePoll (joined true)
        events := by
  have hend : ∃ last, TransitionSystem.run (step 3) (joined true)
      [.alarm .queued, .reschedule true] = some last ∧ last.polls = 2 :=
    ⟨_, rfl, rfl⟩
  refine ⟨by decide, fun hevery => ?_⟩
  obtain ⟨last, hrun, hpolls⟩ := hend
  exact absurd (((hevery 3 _).last hrun).symm.trans hpolls) (by decide)

end PollChain

end Zboss
