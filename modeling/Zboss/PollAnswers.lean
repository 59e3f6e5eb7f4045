import Zboss.ParentPolls
import Zboss.ReceivedFrameDisposal

/-!
# Every poll is answered

A poll waits in `mac_tx_q`, then for a frame or for an alarm of its own, and is
confirmed.  One alarm, two flags and one buffer reference stand for all polls;
what is lost is lost where they do not belong to the same poll.
-/

namespace Zboss

open TransitionSystem PollEvent Multiset

namespace PollCtx

variable {ctx next : PollCtx} {event : PollEvent} {room : Bool}

def Answers (ctx : PollCtx) (frame : IndirectFrame) (room : Bool) : Prop :=
  match ctx.alarms.head? with
  | some (.pollRequest poll) =>
      ctx.pollRequest = true ∧ frame.frameType = .data ∧ ctx.bufRef = poll ∧
        poll ≠ 0 ∧ room = true
  | _ => ctx.pollRequest = true → frame.frameType = .data → ctx.bufRef ≠ 0 → room = false

/-- There is room for what is scheduled.  While the alarm of a poll comes first,
a frame to this device which follows a data request is data, and the frame and
the alarm find that poll in `buf_ref`. -/
def Allows (ctx : PollCtx) : PollEvent → Prop
  | .pollRequest _ room => room = true
  | .handlePollRequest outcome =>
      if outcome.sent ∧ outcome.pendingData then outcome.alarmRoom = true
      else outcome.room = true
  | .macParseRecvData _ frame _ confirmRoom =>
      ctx.canAcceptFrame frame.toMacRxFrame = true →
        ctx.indirectDataRequest = true → ctx.checkFrameDstAddr frame = true →
          ctx.Answers frame confirmRoom
  | .macIndirectDataTimeout room =>
      ∀ poll, ctx.alarms.head? = some (.pollRequest poll) →
        ctx.bufRef = poll ∧ poll ≠ 0 ∧ room = true
  | _ => True

def Meets (ctx : PollCtx) (event : PollEvent) : Prop :=
  ctx.step event ≠ none → ctx.Allows event

def Supported (ctx : PollCtx) : Prop :=
  0 < ctx.delayed → ctx.cbType = .assConfirm

theorem unanswered_eq (ctx : PollCtx) : ctx.unanswered = ↑ctx.pollRequests +
      ↑(ctx.alarms.filterMap IndirectAlarm.poll) := by
  rw [unanswered, ← coe_add]

theorem unanswered_congr (hpolls : next.pollRequests = ctx.pollRequests)
    (halarms : next.alarms = ctx.alarms) :
    next.unanswered = ctx.unanswered := by
  rw [unanswered, unanswered, hpolls, halarms]

theorem unanswered_tail_iff
    {alarm : IndirectAlarm} {rest : List IndirectAlarm} {out : Multiset ℕ}
    (halarms : ctx.alarms = alarm :: rest)
    (hpolls : next.pollRequests = ctx.pollRequests)
    (hrest : next.alarms = rest) :
    ctx.unanswered = next.unanswered + out ↔ (↑alarm.poll.toList : Multiset ℕ) = out := by
  have hhead : ((alarm :: rest).filterMap IndirectAlarm.poll) =
      alarm.poll.toList ++ rest.filterMap IndirectAlarm.poll := by
    cases alarm with
    | assConfirm => rfl
    | pollRequest poll => rfl
  rw [unanswered_eq, unanswered_eq, halarms, hpolls, hrest, hhead,
    ← coe_add, add_assoc, add_right_inj, add_comm, add_right_inj]

theorem singleton_eq_indicate {param buf : ℕ} :
    ({param} : Multiset ℕ) = MacRxCtx.indicate buf room ↔ buf = param ∧ room = true := by
  rw [MacRxCtx.indicate]
  cases room with
  | false => simp
  | true => simp [eq_comm]

theorem zero_eq_indicate {buf : ℕ} :
    (0 : Multiset ℕ) = MacRxCtx.indicate buf room ↔ room = false := by
  rw [MacRxCtx.indicate]
  cases room with
  | false => simp
  | true => simp [eq_comm]

theorem meets_of_step {out : Multiset ℕ} (hstep : ctx.step event = some (next, out)) :
    ctx.Meets event ↔ ctx.Allows event :=
  forall_prop_of_true (hstep ▸ Option.some_ne_none _)

theorem exact_of_none (hstep : ctx.step event = none) :
    Ledger.Moves step issued unanswered ctx event ↔ ctx.Meets event :=
  iff_of_true (Ledger.moves_of_eq_none hstep) (absurd hstep)

theorem moves_iff {out : Multiset ℕ} (hissued : event.issued = 0)
    (hstep : ctx.step event = some (next, out)) :
    Ledger.Moves step issued unanswered ctx event ↔
      ctx.unanswered = next.unanswered + out := by
  rw [Ledger.moves_of_eq_some hstep, hissued, add_zero]

theorem macGetIndirectData_eq (alarm : IndirectAlarm) (outcome : IndirectOutcome) :
    (ctx.macGetIndirectData alarm outcome).2 = (outcome.sent && outcome.pendingData) ∧
      (ctx.macGetIndirectData alarm outcome).1.pollRequests = ctx.pollRequests ∧
      (ctx.macGetIndirectData alarm outcome).1.alarms =
        (if outcome.sent && outcome.pendingData && outcome.alarmRoom then
          ctx.alarms ++ [alarm] else ctx.alarms) ∧
      (ctx.macGetIndirectData alarm outcome).1.delayed = ctx.delayed ∧
      (ctx.macGetIndirectData alarm outcome).1.cbType = ctx.cbType := by
  rw [macGetIndirectData]
  cases outcome.sent with
  | false => exact ⟨rfl, rfl, rfl, rfl, rfl⟩
  | true =>
    dsimp only
    cases outcome.pendingData with
    | false => exact ⟨rfl, rfl, rfl, rfl, rfl⟩
    | true =>
      cases outcome.alarmRoom with
      | false => exact ⟨rfl, rfl, rfl, rfl, rfl⟩
      | true => exact ⟨rfl, rfl, rfl, rfl, rfl⟩

theorem handlePollRequest_cons
    {param : ℕ} {rest : List ℕ} (hpolls : ctx.pollRequests = param :: rest)
    (outcome : IndirectOutcome) :
    ∃ next : PollCtx, ctx.handlePollRequest outcome = some (next,
        if outcome.sent ∧ outcome.pendingData then 0
        else MacRxCtx.indicate param outcome.room) ∧
      next.pollRequests = rest ∧
      next.alarms = (if outcome.sent && outcome.pendingData && outcome.alarmRoom then
          ctx.alarms ++ [.pollRequest param] else ctx.alarms) ∧
      next.delayed = ctx.delayed ∧ next.cbType = ctx.cbType ∧
      ((outcome.sent ∧ outcome.pendingData) → next.bufRef = param) := by
  obtain ⟨hfound, hrest, halarms, hdelayed, hcbType⟩ := @macGetIndirectData_eq
    { ctx with pollRequests := rest } (.pollRequest param) outcome
  rw [handlePollRequest, hpolls]
  dsimp only
  rw [hfound]
  by_cases hpending : outcome.sent ∧ outcome.pendingData
  · have hand : (outcome.sent && outcome.pendingData) = true := by
      rw [hpending.1, hpending.2]
      rfl
    rw [if_pos hand, if_pos hpending]
    exact ⟨_, rfl, hrest, halarms, hdelayed, hcbType, fun _ => rfl⟩
  · have hand : ¬ (outcome.sent && outcome.pendingData) = true := by
      rw [Bool.and_eq_true]
      exact hpending
    rw [if_neg hand, if_neg hpending]
    exact ⟨_, rfl, hrest, halarms, hdelayed, hcbType, fun hsent => absurd hsent hpending⟩

theorem moves_handlePollRequest (outcome : IndirectOutcome) :
    Ledger.Moves step issued unanswered ctx (.handlePollRequest outcome) ↔
      ctx.Meets (.handlePollRequest outcome) := by
  cases hpolls : ctx.pollRequests with
  | nil =>
    refine exact_of_none ?_
    rw [step, handlePollRequest, hpolls]
  | cons param rest =>
    obtain ⟨next, hhandle, hrest, halarms, -⟩ := handlePollRequest_cons hpolls outcome
    have hstep : ctx.step (.handlePollRequest outcome) = some (next, _) := hhandle
    have htaken : ctx.unanswered = ↑rest +
        ↑(ctx.alarms.filterMap IndirectAlarm.poll) + {param} := by
      rw [unanswered_eq, hpolls, ← cons_coe, ← singleton_add]
      abel
    rw [moves_iff rfl hstep, meets_of_step hstep, Allows, htaken,
      unanswered_eq, hrest, halarms]
    by_cases hpending : outcome.sent ∧ outcome.pendingData
    · rw [if_pos hpending, if_pos hpending, hpending.1, hpending.2,
        Bool.true_and, Bool.true_and, add_zero]
      cases outcome.alarmRoom with
      | false => simp
      | true =>
        refine iff_of_true ?_ rfl
        rw [if_pos rfl, List.filterMap_append, ← coe_add, add_assoc]
        rfl
    · rw [if_neg hpending, if_neg hpending]
      have hand : (outcome.sent && outcome.pendingData) = false := by
        rw [Bool.eq_false_iff, ne_eq, Bool.and_eq_true]
        exact hpending
      rw [hand, Bool.false_and, if_neg Bool.false_ne_true, add_right_inj,
        singleton_eq_indicate]
      exact and_iff_right rfl

theorem macIndirectDataTimeout_cons {alarm : IndirectAlarm} {rest : List IndirectAlarm}
    (halarms : ctx.alarms = alarm :: rest) :
    ∃ next : PollCtx, ctx.macIndirectDataTimeout room = some (next,
        if ctx.bufRef ≠ 0 ∧ alarm.cbType = .pollRequest then
          MacRxCtx.indicate ctx.bufRef room else 0) ∧
      next.pollRequests = ctx.pollRequests ∧ next.alarms = rest ∧
      (next.delayed = ctx.delayed ∧ next.cbType = ctx.cbType ∨
        ctx.bufRef = 0 ∧ next.cbType = alarm.cbType) := by
  rw [macIndirectDataTimeout, halarms]
  dsimp only
  by_cases hbuf : ctx.bufRef = 0
  · simp only [hbuf, ne_eq, not_true_eq_false, if_false, false_and]
    exact ⟨_, rfl, rfl, rfl, .inr ⟨trivial, rfl⟩⟩
  · simp only [hbuf, ne_eq, not_false_eq_true, if_true, true_and]
    cases alarm with
    | assConfirm => exact ⟨_, rfl, rfl, rfl, .inl ⟨rfl, rfl⟩⟩
    | pollRequest poll => exact ⟨_, rfl, rfl, rfl, .inl ⟨rfl, rfl⟩⟩

theorem moves_macIndirectDataTimeout : Ledger.Moves step issued unanswered ctx
        (.macIndirectDataTimeout room) ↔
      ctx.Meets (.macIndirectDataTimeout room) := by
  cases halarms : ctx.alarms with
  | nil =>
    refine exact_of_none ?_
    rw [step, macIndirectDataTimeout, halarms]
  | cons alarm rest =>
    obtain ⟨next, htimeout, hpolls, hrest, -⟩ :=
      @macIndirectDataTimeout_cons _ room _ _ halarms
    have hstep : ctx.step (.macIndirectDataTimeout room) = some (next, _) := htimeout
    rw [moves_iff rfl hstep, meets_of_step hstep, Allows,
      unanswered_tail_iff halarms hpolls hrest, halarms]
    cases alarm with
    | assConfirm =>
      refine iff_of_true ?_ (fun _ hhead => nomatch hhead)
      rw [if_neg (fun hpoll => nomatch hpoll.2)]
      rfl
    | pollRequest poll =>
      constructor
      · intro heq other hhead
        obtain ⟨⟩ := hhead
        split at heq
        case isTrue hbuf =>
          obtain ⟨rfl, hroom⟩ := singleton_eq_indicate.mp heq
          exact ⟨rfl, hbuf.1, hroom⟩
        case isFalse => exact absurd heq (singleton_ne_zero poll)
      · intro hall
        obtain ⟨rfl, hne, hroom⟩ := hall poll rfl
        rw [if_pos ⟨hne, rfl⟩]
        exact singleton_eq_indicate.mpr ⟨rfl, hroom⟩

theorem indirectData_iff (frame : IndirectFrame) :
    ctx.unanswered = (ctx.indirectData frame room).1.unanswered +
        (ctx.indirectData frame room).2 ↔
      ctx.Answers frame room := by
  have hpolls : (ctx.indirectData frame room).1.pollRequests = ctx.pollRequests := by
    rw [indirectData]
    split
    · rfl
    · rfl
  have htail : (ctx.indirectData frame room).1.alarms = ctx.alarms.tail := by
    rw [indirectData]
    split
    · rfl
    · rfl
  have hout : (ctx.indirectData frame room).2 =
      if ctx.pollRequest ∧ frame.frameType = .data ∧ ctx.bufRef ≠ 0 then
        MacRxCtx.indicate ctx.bufRef room else 0 := by
    rw [indirectData]
    split
    · rfl
    · rfl
  rw [Answers]
  -- without the alarm of a poll nothing may be confirmed
  have hnone : (0 : Multiset ℕ) = (ctx.indirectData frame room).2 ↔
      (ctx.pollRequest = true → frame.frameType = .data → ctx.bufRef ≠ 0 →
        room = false) := by
    rw [hout]
    split
    case isTrue hpoll =>
      rw [zero_eq_indicate, forall_prop_of_true hpoll.1,
        forall_prop_of_true hpoll.2.1, forall_prop_of_true hpoll.2.2]
    case isFalse hpoll =>
      refine iff_of_true rfl fun hrequest hdata hbuf => ?_
      exact absurd ⟨hrequest, hdata, hbuf⟩ hpoll
  cases halarms : ctx.alarms with
  | nil =>
    rw [halarms] at htail
    rw [unanswered_congr hpolls (htail.trans halarms.symm), left_eq_add, eq_comm]
    exact hnone
  | cons alarm rest =>
    rw [halarms] at htail
    rw [unanswered_tail_iff halarms hpolls htail]
    cases alarm with
    | assConfirm => exact hnone
    | pollRequest poll =>
      change {poll} = _ ↔ _
      rw [hout, List.head?_cons]
      split
      case isTrue hpoll =>
        rw [singleton_eq_indicate]
        constructor
        · rintro ⟨rfl, hroom⟩
          exact ⟨hpoll.1, hpoll.2.1, rfl, hpoll.2.2, hroom⟩
        · rintro ⟨-, -, hbuf, -, hroom⟩
          exact ⟨hbuf, hroom⟩
      case isFalse hpoll =>
        refine iff_of_false (singleton_ne_zero poll) ?_
        rintro ⟨hrequest, hdata, rfl, hbuf, -⟩
        exact hpoll ⟨hrequest, hdata, hbuf⟩

theorem moves_macParseRecvData (param : ℕ) (frame : IndirectFrame) (confirmRoom : Bool) :
    Ledger.Moves step issued unanswered ctx
        (.macParseRecvData param frame room confirmRoom) ↔
      ctx.Meets (.macParseRecvData param frame room confirmRoom) := by
  have hstep : ctx.step (.macParseRecvData param frame room confirmRoom) =
      some ((ctx.macParseRecvData param frame room confirmRoom).1,
        (ctx.macParseRecvData param frame room confirmRoom).2) := rfl
  rw [moves_iff rfl hstep, meets_of_step hstep, Allows, macParseRecvData]
  dsimp only
  by_cases htaken : ctx.canAcceptFrame frame.toMacRxFrame ∧
      ctx.indirectDataRequest ∧ ctx.checkFrameDstAddr frame
  · rw [if_pos htaken, forall_prop_of_true htaken.1,
      forall_prop_of_true htaken.2.1, forall_prop_of_true htaken.2.2]
    exact @indirectData_iff { ctx with
      toMacRxCtx := (ctx.toMacRxCtx.macParseRecvData param
        frame.toMacRxFrame room).1 } confirmRoom frame
  · rw [if_neg htaken]
    refine iff_of_true (add_zero _).symm ?_
    intro haccept hrequest haddr
    exact absurd ⟨haccept, hrequest, haddr⟩ htaken

theorem macRespTimeout_eq_some {outcome : IndirectOutcome} {out : Multiset ℕ}
    (hstep : ctx.step (.macRespTimeout outcome) = some (next, out)) :
    (next.delayed = ctx.delayed ∧ next.cbType = ctx.cbType) ∧ out = 0 ∧
      next.pollRequests = ctx.pollRequests ∧
      (next.alarms = ctx.alarms ∨ next.alarms = ctx.alarms ++ [.assConfirm]) := by
  rw [step, macRespTimeout] at hstep
  cases hbuf : ctx.pendingBuf with
  | none =>
    rw [hbuf] at hstep
    contradiction
  | some buf =>
    obtain ⟨-, hpolls, halarms, hdelayed, hcbType⟩ := @macGetIndirectData_eq
      { ctx with assRequest := true, pendingBuf := some buf } .assConfirm outcome
    have hset (alarms : List IndirectAlarm)
        (hmay : alarms = if outcome.sent && outcome.pendingData &&
          outcome.alarmRoom then ctx.alarms ++ [.assConfirm]
          else ctx.alarms) :
        alarms = ctx.alarms ∨ alarms = ctx.alarms ++ [.assConfirm] := by
      rw [hmay]
      split
      · exact .inr rfl
      · exact .inl rfl
    rw [hbuf] at hstep
    dsimp only at hstep
    split at hstep
    · obtain ⟨rfl, rfl⟩ := some_pair_inj hstep
      exact ⟨⟨hdelayed, hcbType⟩, rfl, hpolls, hset _ halarms⟩
    · obtain ⟨rfl, rfl⟩ := some_pair_inj hstep
      exact ⟨⟨hdelayed, hcbType⟩, rfl, hpolls, hset _ halarms⟩

theorem mac_eq_some {event : MacRxEvent} {out : Multiset ℕ}
    (hstep : ctx.step (.mac event) = some (next, out)) :
    out = 0 ∧ ∃ mac, next = { ctx with toMacRxCtx := mac } := by
  rw [step] at hstep
  split at hstep
  · obtain ⟨⟨mac, moved⟩, -, heq⟩ := Option.bind_eq_some_iff.mp hstep
    obtain ⟨rfl, rfl⟩ := some_pair_inj heq
    exact ⟨rfl, mac, rfl⟩
  · contradiction

theorem moves_iff_meets (hsupported : ctx.Supported) (event : PollEvent) :
    Ledger.Moves step issued unanswered ctx event ↔ ctx.Meets event := by
  cases event with
  | pollRequest param room =>
    have hstep : ctx.step (.pollRequest param room) = some ({ ctx with
        pollRequests := if room then ctx.pollRequests ++ [param] else ctx.pollRequests },
        0) := rfl
    rw [Ledger.moves_of_eq_some hstep, meets_of_step hstep, Allows,
      issued, unanswered_eq, unanswered_eq]
    cases room with
    | false => simp
    | true =>
      refine iff_of_true ?_ rfl
      rw [if_pos rfl, ← coe_add, coe_singleton]
      abel
  | handlePollRequest outcome => exact moves_handlePollRequest outcome
  | macParseRecvData param frame room confirmRoom =>
    exact moves_macParseRecvData param frame confirmRoom
  | macIndirectDataTimeout room => exact moves_macIndirectDataTimeout
  | indirectDataCallbackCaller param room =>
    refine iff_of_true (fun next out hstep => ?_) (fun _ => trivial)
    rw [step, indirectDataCallbackCaller] at hstep
    split at hstep
    case isTrue hdelayed =>
      rw [hsupported hdelayed] at hstep
      obtain ⟨rfl, rfl⟩ := some_pair_inj hstep
      rfl
    case isFalse => contradiction
  | macRespTimeout outcome =>
    refine iff_of_true (fun next out hstep => ?_) (fun _ => trivial)
    obtain ⟨-, rfl, hpolls, halarms⟩ := macRespTimeout_eq_some hstep
    refine congrArg (· + 0) ?_
    rw [unanswered, unanswered, hpolls]
    obtain halarms | halarms := halarms
    · rw [halarms]
    · rw [halarms, List.filterMap_append]
      exact congrArg (fun polls => (↑(ctx.pollRequests ++ polls) : Multiset ℕ))
        (List.append_nil _).symm
  | interrupt pending =>
    refine iff_of_true (fun next out hstep => ?_) (fun _ => trivial)
    obtain ⟨rfl, rfl⟩ := some_pair_inj hstep
    split
    · rfl
    · rfl
  | mac event =>
    refine iff_of_true (fun next out hstep => ?_) (fun _ => trivial)
    obtain ⟨rfl, mac, rfl⟩ := mac_eq_some hstep
    rfl

theorem supported_step
    {out : Multiset ℕ} (hsupported : ctx.Supported) (hmeets : ctx.Meets event)
    (hstep : ctx.step event = some (next, out)) : next.Supported := by
  have hallows := (meets_of_step hstep).mp hmeets
  cases event with
  | pollRequest param room =>
    obtain ⟨rfl, rfl⟩ := some_pair_inj hstep
    exact hsupported
  | handlePollRequest outcome =>
    cases hpolls : ctx.pollRequests with
    | nil =>
      rw [step, handlePollRequest, hpolls] at hstep
      contradiction
    | cons param rest =>
      obtain ⟨other, hhandle, -, -, hdelayed, hcbType, -⟩ :=
        handlePollRequest_cons hpolls outcome
      obtain ⟨rfl, -⟩ := some_pair_inj (hhandle.symm.trans hstep)
      rw [Supported, hdelayed, hcbType]
      exact hsupported
  | macParseRecvData param frame room confirmRoom =>
    have hnext : next = (ctx.macParseRecvData param frame room confirmRoom).1 :=
      (congrArg Prod.fst (Option.some.inj hstep)).symm
    rw [hnext, macParseRecvData]
    dsimp only
    split
    · rw [indirectData]
      split
      · exact hsupported
      · exact hsupported
    · exact hsupported
  | macIndirectDataTimeout room =>
    cases halarms : ctx.alarms with
    | nil =>
      rw [step, macIndirectDataTimeout, halarms] at hstep
      contradiction
    | cons alarm rest =>
      obtain ⟨other, htimeout, -, -, hkept⟩ :=
        @macIndirectDataTimeout_cons _ room _ _ halarms
      obtain ⟨rfl, -⟩ := some_pair_inj (htimeout.symm.trans hstep)
      rw [Supported]
      obtain ⟨hdelayed, hcbType⟩ | ⟨hbuf, hcbType⟩ := hkept
      · rw [hdelayed, hcbType]
        exact hsupported
      · intro _
        rw [hcbType]
        cases alarm with
        | assConfirm => rfl
        | pollRequest poll =>
          obtain ⟨rfl, hne, -⟩ := hallows poll (by
            rw [halarms]
            rfl)
          exact absurd hbuf hne
  | indirectDataCallbackCaller param room =>
    rw [step, indirectDataCallbackCaller] at hstep
    split at hstep
    case isTrue hdelayed =>
      rw [hsupported hdelayed] at hstep
      obtain ⟨rfl, rfl⟩ := some_pair_inj hstep
      exact fun _ => rfl
    case isFalse => contradiction
  | macRespTimeout outcome =>
    obtain ⟨⟨hdelayed, hcbType⟩, -⟩ := macRespTimeout_eq_some hstep
    rw [Supported, hdelayed, hcbType]
    exact hsupported
  | interrupt pending =>
    obtain ⟨rfl, rfl⟩ := some_pair_inj hstep
    split
    · exact hsupported
    · exact hsupported
  | mac event =>
    obtain ⟨-, mac, rfl⟩ := mac_eq_some hstep
    exact hsupported

def opened (mac : MacRxCtx) (shortAddress extendedAddress : ℕ) : Ledger.Book PollCtx ℕ :=
  ⟨start mac shortAddress extendedAddress, 0, 0⟩

/-- The polls in `mac_tx_q` can be handled one after another, and alarms expire,
until every poll which was issued has been confirmed, each once. -/
def Answered (outcome : ℕ → IndirectOutcome) (book : Ledger.Book PollCtx ℕ) :
    Prop :=
  ∃ events, (∀ event ∈ events, event = .macIndirectDataTimeout true ∨
      ∃ param, event = .handlePollRequest (outcome param)) ∧
    ∃ last, TransitionSystem.run (Ledger.step step issued) book events = some last ∧
      last.received = book.received ∧ last.disposed = last.received

section Answered

variable {outcome : ℕ → IndirectOutcome} {book after : Ledger.Book PollCtx ℕ}

theorem Answered.step (hevent : event = .macIndirectDataTimeout true ∨
      ∃ param, event = .handlePollRequest (outcome param))
    (hstep : Ledger.step PollCtx.step issued book event = some after)
    (hanswered : Answered outcome after) : Answered outcome book := by
  obtain ⟨events, hevents, last, hrun, hreceived, hdisposed⟩ := hanswered
  refine ⟨event :: events, ?_, last,
    run_cons_eq_some.mpr ⟨after, hstep, hrun⟩, ?_, hdisposed⟩
  · intro other hmem
    obtain rfl | hmem := List.mem_cons.mp hmem
    · exact hevent
    · exact hevents other hmem
  · obtain ⟨state, out, -, rfl⟩ := Ledger.step_eq_some.mp hstep
    have hissued : event.issued = 0 := by
      obtain rfl | ⟨param, rfl⟩ := hevent
      · rfl
      · rfl
    dsimp only at hreceived
    rw [hreceived, hissued, add_zero]

theorem answered_of_alarm (hbalanced : Ledger.Balanced unanswered book)
    (halarms : book.state.alarms = [.pollRequest book.state.bufRef])
    (hbuf : book.state.bufRef ≠ 0)
    (hidle : ∀ after : Ledger.Book PollCtx ℕ,
      Ledger.Balanced unanswered after → after.state.alarms = [] →
        after.state.pollRequests = book.state.pollRequests → Answered outcome after) :
    Answered outcome book := by
  obtain ⟨next, htimeout, hpolls, hrest, -⟩ :=
    @macIndirectDataTimeout_cons _ true _ _ halarms
  have hnext : book.state.step (.macIndirectDataTimeout true) =
      some (next, _) := htimeout
  have hmoves : Ledger.Moves step issued unanswered book.state
      (.macIndirectDataTimeout true) := by
    refine moves_macIndirectDataTimeout.mpr ((meets_of_step hnext).mpr ?_)
    intro poll hhead
    rw [halarms] at hhead
    obtain ⟨⟩ := hhead
    exact ⟨rfl, hbuf, rfl⟩
  obtain ⟨after, hstep, rfl, hafter⟩ := Ledger.step_of_moves hbalanced hmoves hnext
  exact Answered.step (.inl rfl) hstep (hidle after hafter hrest hpolls)

/-- By induction on the polls which are queued. -/
theorem answered_of_idle (hroom : ∀ param, (outcome param).alarmRoom = true ∧
      (outcome param).room = true)
    (hbalanced : Ledger.Balanced unanswered book)
    (hpolls : ∀ param ∈ book.state.pollRequests, param ≠ 0)
    (halarms : book.state.alarms = []) : Answered outcome book := by
  induction hqueue : book.state.pollRequests generalizing book with
  | nil =>
    refine ⟨[], fun _ hmem => (nomatch hmem), book, rfl, rfl, ?_⟩
    rw [Ledger.Balanced, unanswered, hqueue, halarms] at hbalanced
    exact (hbalanced.trans (zero_add _)).symm
  | cons param rest ih =>
    obtain ⟨next, hhandle, hrest, halarm, -, -, hbuf⟩ :=
      handlePollRequest_cons hqueue (outcome param)
    have hnext : book.state.step (.handlePollRequest (outcome param)) =
        some (next, _) := hhandle
    have hmoves : Ledger.Moves step issued unanswered book.state
        (.handlePollRequest (outcome param)) := by
      refine (moves_handlePollRequest _).mpr ((meets_of_step hnext).mpr ?_)
      rw [Allows]
      split
      · exact (hroom param).1
      · exact (hroom param).2
    obtain ⟨after, hstep, rfl, hafter⟩ := Ledger.step_of_moves hbalanced hmoves hnext
    have hnonzero : ∀ other ∈ rest, other ≠ 0 := by
      intro other hmem
      refine hpolls other ?_
      rw [hqueue]
      exact List.mem_cons_of_mem _ hmem
    refine Answered.step (.inr ⟨param, rfl⟩) hstep ?_
    rw [halarms, (hroom param).1, Bool.and_true, List.nil_append] at halarm
    by_cases hpending : (outcome param).sent ∧ (outcome param).pendingData
    · rw [if_pos (Bool.and_eq_true _ _ ▸ hpending)] at halarm
      have hown := hbuf hpending
      refine answered_of_alarm hafter ?_ ?_ fun idle hidle hnone hsame => ?_
      · rw [halarm, hown]
      · rw [hown]
        refine hpolls param ?_
        rw [hqueue]
        exact List.mem_cons_self
      · have hqueued := hsame.trans hrest
        refine ih hidle ?_ hnone hqueued
        rw [hqueued]
        exact hnonzero
    · rw [if_neg (fun h => hpending (Bool.and_eq_true _ _ ▸ h))] at halarm
      refine ih hafter ?_ halarm hrest
      rw [hrest]
      exact hnonzero

end Answered

/-- Every poll waits in the queue or for an alarm of its own, or has been
confirmed once, in exactly the runs in which the alarm or the data frame which
ends an exchange finds the poll of that exchange in `buf_ref` and there is room
for what is scheduled.  Such a run can always be continued until each poll has
been confirmed, once no more than one exchange is open. -/
theorem everyState_pollsConfirmed_iff (mac : MacRxCtx) (shortAddress extendedAddress : ℕ)
    (events : List PollEvent) :
    (EveryState (Ledger.step step issued) (Ledger.Balanced unanswered)
        (opened mac shortAddress extendedAddress) events ↔
      AlongRun (Ledger.step step issued) (fun book event => book.state.Meets event)
        (opened mac shortAddress extendedAddress) events) ∧
    ∀ last, TransitionSystem.run (Ledger.step step issued)
        (opened mac shortAddress extendedAddress) events = some last →
      AlongRun (Ledger.step step issued) (fun book event => book.state.Meets event)
        (opened mac shortAddress extendedAddress) events →
      (∀ param ∈ last.state.pollRequests, param ≠ 0) →
      (last.state.alarms = [] ∨ last.state.alarms = [.pollRequest last.state.bufRef] ∧
          last.state.bufRef ≠ 0) →
      ∀ outcome : ℕ → IndirectOutcome, (∀ param, (outcome param).alarmRoom = true ∧
          (outcome param).room = true) →
        Answered outcome last := by
  have hiff : EveryState (Ledger.step step issued) (Ledger.Balanced unanswered)
      (opened mac shortAddress extendedAddress) events ↔
    AlongRun (Ledger.step step issued) (fun book event => book.state.Meets event)
      (opened mac shortAddress extendedAddress) events := by
    refine @Ledger.everyState_balanced_iff _ _ _ step issued
      unanswered Supported Meets ?_ ?_ _ events rfl
      (fun hdelayed => nomatch hdelayed)
    · intro ctx event hsupported
      exact moves_iff_meets hsupported event
    · intro ctx event next out hsupported hmeets hstep
      exact supported_step hsupported hmeets hstep
  refine ⟨hiff, fun last hrun hmeets hpolls hopen outcome hroom => ?_⟩
  have hbalanced := (hiff.mpr hmeets).last hrun
  obtain halarms | ⟨halarms, hbuf⟩ := hopen
  · exact answered_of_idle hroom hbalanced hpolls halarms
  · refine answered_of_alarm hbalanced halarms hbuf ?_
    intro after hafter hnone hsame
    refine answered_of_idle hroom hafter ?_ hnone
    rw [hsame]
    exact hpolls

/-- The parent answers a poll with a command frame: the alarm is cancelled and
the poll is never confirmed. -/
theorem not_everyState_answered_command : ¬ EveryState (Ledger.step step issued)
      (Ledger.Balanced unanswered)
      (opened (MacRxCtx.start true true) 0x143e 1)
      [.pollRequest 1 true, .handlePollRequest ⟨true, true, true, true⟩,
        .macParseRecvData 2 ⟨⟨.command, false, 0, 0x143e, .short, .associationResponse⟩,
            .short, 0, false⟩ true true] := by
  intro hevery
  have hlast : (TransitionSystem.run (Ledger.step step issued)
      (opened (MacRxCtx.start true true) 0x143e 1)
      [.pollRequest 1 true, .handlePollRequest ⟨true, true, true, true⟩,
        .macParseRecvData 2 ⟨⟨.command, false, 0, 0x143e, .short, .associationResponse⟩,
            .short, 0, false⟩ true true]).map (fun last =>
          (last.received, unanswered last.state + last.disposed)) =
      some ({1}, 0) := by
    decide +kernel
  obtain ⟨last, hrun, heq⟩ := Option.map_eq_some_iff.mp hlast
  obtain ⟨hreceived, hnothing⟩ := Prod.mk.inj heq
  have hbalanced := hevery.last hrun
  rw [Ledger.Balanced, hreceived, hnothing] at hbalanced
  exact singleton_ne_zero 1 hbalanced

end PollCtx

end Zboss
