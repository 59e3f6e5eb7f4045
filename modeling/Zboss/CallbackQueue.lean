import Zboss.BufferPool
import Zboss.TransitionSystem

/-!
# The queue of callbacks

Running code appends callbacks to `cb_q`, and the main loop calls the first one
and takes it out of the ring when it has returned.  To its users the ring is a
queue of bounded length whose first entry may be in execution.
-/

namespace Zboss

open RingBuffer TransitionSystem

structure SchedCallback where
  func : ℕ
  param : UInt8

structure CallbackFifo where
  waiting : List SchedCallback
  running : Bool

inductive CallbackEvent where
  | schedule (func : ℕ) (param : UInt8)
  | call
  | callReturns

inductive CallbackFifo.Step (fifo : CallbackFifo) :
    CallbackEvent → Except RetError (Option SchedCallback) → CallbackFifo → Prop
  | accept (func : ℕ) (param : UInt8) (hroom : fifo.waiting.length < schedulerQSize) :
      Step fifo (.schedule func param) (.ok none)
        { fifo with waiting := fifo.waiting ++ [⟨func, param⟩] }
  | overflow (func : ℕ) (param : UInt8) (hfull : fifo.waiting.length = schedulerQSize) :
      Step fifo (.schedule func param) (.error .overflow) fifo
  | call (ent : SchedCallback) (rest : List SchedCallback)
      (hfirst : fifo.waiting = ent :: rest) (hidle : fifo.running = false) :
      Step fifo .call (.ok (some ent)) { fifo with running := true }
  | callReturns (ent : SchedCallback) (rest : List SchedCallback)
      (hfirst : fifo.waiting = ent :: rest) (hrunning : fifo.running = true) :
      Step fifo .callReturns (.ok none) ⟨rest, false⟩

/-- `cb_q` and whether the main loop is in the callback of its first entry,
with the callbacks for which `RET_OK` was returned and those which were
called. -/
structure CallbackRun where
  cbQ : RingBuf SchedCallback
  executing : Bool
  accepted : List SchedCallback
  called : List SchedCallback

namespace CallbackRun

def zbScheduleCallback (cbQ : RingBuf SchedCallback) (func : ℕ) (param : UInt8) :
    Option (RingBuf SchedCallback × Except RetError Unit) :=
  if schedulerQSize ≤ cbQ.written then some (cbQ, .error .overflow)
  else
    let cbQ := cbQ.put schedulerQSize ⟨func, param⟩
    if param.toNat ≤ iobufPoolSize then some (cbQ, .ok ()) else none

/-- An event with what it returns or calls.  Whether the loop stops for a
received frame decides only when its next call comes. -/
def exec (run : CallbackRun) :
    CallbackEvent → Option (CallbackRun × Except RetError (Option SchedCallback))
  | .schedule func param =>
      match zbScheduleCallback run.cbQ func param with
      | some (cbQ, .ok _) =>
          some ({ run with cbQ, accepted := run.accepted ++ [⟨func, param⟩] }, .ok none)
      | some (cbQ, .error ret) => some ({ run with cbQ }, .error ret)
      | none => none
  | .call =>
      match run.executing, run.cbQ.peek with
      | false, some ent =>
          some ({ run with executing := true, called := run.called ++ [ent] },
              .ok (some ent))
      | _, _ => none
  | .callReturns =>
      if run.executing then
        some
          ({ run with
              cbQ := run.cbQ.flushGet schedulerQSize
              executing := false },
            .ok none)
      else none

def step (run : CallbackRun) (event : CallbackEvent) : Option CallbackRun :=
  (run.exec event).map Prod.fst

def start : CallbackRun where
  cbQ := ⟨fun _ => ⟨0, 0⟩, 0, 0, 0⟩
  executing := false
  accepted := []
  called := []

def fifo (run : CallbackRun) : CallbackFifo where
  waiting := run.cbQ.contents schedulerQSize
  running := run.executing

/-- The event does what it does to the queue, and what the queue can do is done
unless the assertion on the parameter fails.  One which fails changes nothing
at all, and a new entry goes to none of the places which are in use. -/
structure Refines (run : CallbackRun) (event : CallbackEvent) : Prop where
  returns : ∀ ret fifo, run.fifo.Step event ret fifo →
    (∀ func param, event = .schedule func param → param.toNat ≤ iobufPoolSize) →
    ∃ next, run.exec event = some (next, ret) ∧ next.fifo = fifo
  step : ∀ next ret, run.exec event = some (next, ret) → run.fifo.Step event ret next.fifo
  failed : ∀ next ret, run.exec event = some (next, .error ret) → next = run
  kept : ∀ next func param, event = .schedule func param →
    run.step event = some next → ∀ k < run.cbQ.written,
      next.cbQ.ringBuf ((run.cbQ.readI + k) % schedulerQSize) =
        run.cbQ.ringBuf ((run.cbQ.readI + k) % schedulerQSize)

/-- The callbacks are called in the order of the calls which were accepted,
each once and with its parameter; the one which runs is the last called one,
and still the first of the ring. -/
structure InOrder (run : CallbackRun) : Prop where
  valid : run.cbQ.Valid schedulerQSize
  idle : run.executing = false → run.accepted = run.called ++ run.fifo.waiting
  running : run.executing = true → ∃ ent rest before,
    run.fifo.waiting = ent :: rest ∧ run.called = before ++ [ent] ∧
      run.accepted = run.called ++ rest

variable {run next : CallbackRun} {event : CallbackEvent}

theorem inOrder_start : start.InOrder := by
  refine ⟨⟨by decide, by decide, rfl⟩, fun _ => rfl, fun hrunning => ?_⟩
  contradiction

theorem zbScheduleCallback_cases
    {cbQ after : RingBuf SchedCallback} {func : ℕ} {param : UInt8}
    {ret : Except RetError Unit}
    (hschedule : zbScheduleCallback cbQ func param = some (after, ret)) :
    (schedulerQSize ≤ cbQ.written ∧ after = cbQ ∧ ret = .error .overflow) ∨
      (cbQ.written < schedulerQSize ∧ ret = .ok () ∧
        after = cbQ.put schedulerQSize ⟨func, param⟩) := by
  rw [zbScheduleCallback] at hschedule
  split at hschedule
  case isTrue hfull =>
    obtain ⟨rfl, rfl⟩ := some_pair_inj hschedule
    exact .inl ⟨hfull, rfl, rfl⟩
  case isFalse hroom =>
    dsimp only at hschedule
    split at hschedule
    case isTrue =>
      obtain ⟨rfl, rfl⟩ := some_pair_inj hschedule
      exact .inr ⟨Nat.lt_of_not_le hroom, rfl, rfl⟩
    case isFalse => contradiction

theorem exec_cases {ret : Except RetError (Option SchedCallback)}
    (hexec : run.exec event = some (next, ret)) :
    (∃ func param, event = .schedule func param ∧
      schedulerQSize ≤ run.cbQ.written ∧ next = run ∧ ret = .error .overflow) ∨
      (∃ func param, event = .schedule func param ∧
        run.cbQ.written < schedulerQSize ∧ ret = .ok none ∧
          next = { run with
            cbQ := run.cbQ.put schedulerQSize ⟨func, param⟩
            accepted := run.accepted ++ [⟨func, param⟩] }) ∨
      (∃ ent, event = .call ∧ run.executing = false ∧
        run.cbQ.peek = some ent ∧ ret = .ok (some ent) ∧
          next = { run with
            executing := true
            called := run.called ++ [ent] }) ∨
      (event = .callReturns ∧ run.executing = true ∧ ret = .ok none ∧
        next = { run with
          cbQ := run.cbQ.flushGet schedulerQSize
          executing := false }) := by
  cases event with
  | schedule func param =>
    rw [exec] at hexec
    split at hexec
    case h_1 cbQ _ hschedule =>
      obtain ⟨rfl, rfl⟩ := some_pair_inj hexec
      obtain ⟨-, -, hret⟩ | ⟨hroom, -, rfl⟩ := zbScheduleCallback_cases hschedule
      · contradiction
      · exact .inr (.inl ⟨func, param, rfl, hroom, rfl, rfl⟩)
    case h_2 cbQ failure hschedule =>
      obtain ⟨rfl, rfl⟩ := some_pair_inj hexec
      obtain ⟨hfull, rfl, hret⟩ | ⟨-, hret, -⟩ := zbScheduleCallback_cases hschedule
      · obtain rfl := Except.error.inj hret
        exact .inl ⟨func, param, rfl, hfull, rfl, rfl⟩
      · contradiction
    case h_3 => contradiction
  | call =>
    rw [exec] at hexec
    split at hexec
    case h_1 ent hexecuting hpeek =>
      obtain ⟨rfl, rfl⟩ := some_pair_inj hexec
      exact .inr (.inr (.inl ⟨ent, rfl, hexecuting, hpeek, rfl, rfl⟩))
    case h_2 => contradiction
  | callReturns =>
    rw [exec] at hexec
    split at hexec
    case isTrue hexecuting =>
      obtain ⟨rfl, rfl⟩ := some_pair_inj hexec
      exact .inr (.inr (.inr ⟨rfl, hexecuting, rfl, rfl⟩))
    case isFalse => contradiction

section

variable (horder : run.InOrder)

include horder

theorem peek_eq_some_iff {ent : SchedCallback} :
    run.cbQ.peek = some ent ↔ ∃ rest, run.fifo.waiting = ent :: rest := by
  rw [RingBuf.peek_eq_head? horder.valid, List.head?_eq_some_iff]
  rfl

theorem written_pos (hexecuting : run.executing = true) :
    0 < run.cbQ.written := by
  obtain ⟨ent, rest, -, hwaiting, -⟩ := horder.running hexecuting
  have hlength : run.fifo.waiting.length = run.cbQ.written := RingBuf.contents_length
  rw [← hlength, hwaiting]
  exact Nat.succ_pos _

theorem fifo_put (hroom : run.cbQ.written < schedulerQSize) (ent : SchedCallback) :
    (run.cbQ.put schedulerQSize ent).contents schedulerQSize = run.fifo.waiting ++ [ent] :=
  horder.valid.contents_put hroom ent

theorem exec_of_step {ret : Except RetError (Option SchedCallback)} {fifo : CallbackFifo}
    (hstep : run.fifo.Step event ret fifo)
    (hparam : ∀ func param, event = .schedule func param → param.toNat ≤ iobufPoolSize) :
    ∃ next, run.exec event = some (next, ret) ∧ next.fifo = fifo := by
  have hlength : run.fifo.waiting.length = run.cbQ.written := RingBuf.contents_length
  cases hstep with
  | accept func param hroom =>
    rw [hlength] at hroom
    rw [exec, zbScheduleCallback, if_neg (Nat.not_le.mpr hroom)]
    dsimp only
    rw [if_pos (hparam func param rfl), ← fifo_put horder hroom]
    exact ⟨_, rfl, rfl⟩
  | overflow func param hfull =>
    rw [exec, zbScheduleCallback, if_pos (by rw [← hlength, hfull])]
    exact ⟨run, rfl, rfl⟩
  | call ent rest hfirst hidle =>
    have hexecuting : run.executing = false := hidle
    rw [exec, hexecuting, (peek_eq_some_iff horder).mpr ⟨rest, hfirst⟩]
    exact ⟨_, rfl, rfl⟩
  | callReturns ent rest hfirst hrunning =>
    have hexecuting : run.executing = true := hrunning
    rw [exec, if_pos hexecuting]
    refine ⟨_, rfl, ?_⟩
    rw [fifo, RingBuf.contents_flushGet (written_pos horder hexecuting)]
    exact congrArg (fun waiting => CallbackFifo.mk (List.tail waiting) false) hfirst

theorem refines : run.Refines event := by
  refine ⟨fun ret fifo => exec_of_step horder, fun next ret hexec => ?_,
    fun next ret hexec => ?_, ?_⟩
  · obtain ⟨func, param, rfl, hfull, rfl, rfl⟩ | ⟨func, param, rfl, hroom, rfl, rfl⟩ |
        ⟨ent, rfl, hidle, hpeek, rfl, rfl⟩ | ⟨rfl, hexecuting, rfl, rfl⟩ :=
      exec_cases hexec
    · apply CallbackFifo.Step.overflow
      rw [fifo, RingBuf.contents_length]
      exact Nat.le_antisymm horder.valid.written hfull
    · have hstep := CallbackFifo.Step.accept func param
        (show run.fifo.waiting.length < schedulerQSize by
          rw [fifo, RingBuf.contents_length]
          exact hroom)
      rw [← fifo_put horder hroom] at hstep
      exact hstep
    · obtain ⟨rest, hwaiting⟩ := (peek_eq_some_iff horder).mp hpeek
      exact CallbackFifo.Step.call ent rest hwaiting hidle
    · obtain ⟨ent, rest, -, hwaiting, -⟩ := horder.running hexecuting
      have hstep := CallbackFifo.Step.callReturns ent rest hwaiting hexecuting
      have hrest : (run.cbQ.flushGet schedulerQSize).contents schedulerQSize =
          rest := by
        rw [RingBuf.contents_flushGet (written_pos horder hexecuting)]
        exact congrArg List.tail hwaiting
      rw [← hrest] at hstep
      exact hstep
  · obtain ⟨func, param, rfl, hfull, hnext, -⟩ |
        ⟨func, param, rfl, -, hret, -⟩ | ⟨ent, rfl, -, -, hret, -⟩ |
        ⟨rfl, -, hret, -⟩ :=
      exec_cases hexec
    · exact hnext
    · contradiction
    · contradiction
    · contradiction
  · rintro next func param rfl hstep k hk
    obtain ⟨⟨last, ret⟩, hexec, rfl⟩ := Option.map_eq_some_iff.mp hstep
    obtain ⟨_, _, -, -, rfl, -⟩ | ⟨_, _, hevent, hroom, -, rfl⟩ |
        ⟨_, hevent, -⟩ | ⟨hevent, -⟩ := exec_cases hexec
    · rfl
    · exact horder.valid.ringBuf_put hroom _ hk
    · contradiction
    · contradiction

theorem inOrder_step (hstep : run.step event = some next) : next.InOrder := by
  obtain ⟨⟨last, ret⟩, hexec, rfl⟩ := Option.map_eq_some_iff.mp hstep
  obtain ⟨func, param, rfl, -, rfl, -⟩ | ⟨func, param, rfl, hroom, -, rfl⟩ |
      ⟨ent, rfl, hidle, hpeek, -, rfl⟩ | ⟨rfl, hexecuting, -, rfl⟩ :=
    exec_cases hexec
  · exact horder
  · refine ⟨horder.valid.put hroom _, fun hidle => ?_, fun hexecuting => ?_⟩
    · rw [fifo, fifo_put horder hroom]
      dsimp only
      rw [horder.idle hidle, List.append_assoc]
    · obtain ⟨ent, rest, before, hwaiting, hcalled, haccepted⟩ :=
        horder.running hexecuting
      refine ⟨ent, rest ++ [⟨func, param⟩], before, ?_, hcalled, ?_⟩
      · rw [fifo, fifo_put horder hroom, hwaiting, List.cons_append]
      · dsimp only
        rw [haccepted, List.append_assoc]
  · obtain ⟨rest, hwaiting⟩ := (peek_eq_some_iff horder).mp hpeek
    refine ⟨horder.valid, nofun, fun _ => ?_⟩
    refine ⟨ent, rest, run.called, hwaiting, rfl, ?_⟩
    dsimp only
    rw [horder.idle hidle, hwaiting, List.append_assoc, List.singleton_append]
  · obtain ⟨ent, rest, before, hwaiting, -, haccepted⟩ :=
      horder.running hexecuting
    have hpos := written_pos horder hexecuting
    refine ⟨horder.valid.flushGet hpos, fun _ => ?_, nofun⟩
    rw [fifo, RingBuf.contents_flushGet hpos]
    dsimp only
    rw [haccepted]
    exact congrArg (run.called ++ ·) (congrArg List.tail hwaiting).symm

end

theorem inOrder_run
    {events : List CallbackEvent} {last : CallbackRun} (horder : run.InOrder)
    (hrun : TransitionSystem.run step run events = some last) :
    last.InOrder :=
  invariant_of_run (fun _ _ _ horder _ hstep => inOrder_step horder hstep)
    horder (alongRun_of_forall (fun _ _ => trivial) run events) hrun

theorem exists_call
    {ent : SchedCallback} {rest : List SchedCallback} (horder : run.InOrder)
    (hidle : run.executing = false)
    (hwaiting : run.fifo.waiting = ent :: rest) :
    ∃ during next, run.step .call = some during ∧
      during.step .callReturns = some next ∧ next.executing = false ∧
        next.fifo.waiting = rest ∧ next.accepted = run.accepted := by
  have hpeek := (peek_eq_some_iff horder).mpr ⟨rest, hwaiting⟩
  have hcall : run.step .call =
      some { run with executing := true, called := run.called ++ [ent] } := by
    rw [step, exec, hidle, hpeek]
    rfl
  have hpos := written_pos (inOrder_step horder hcall) rfl
  refine ⟨_, _, hcall, rfl, rfl, ?_, rfl⟩
  rw [fifo, RingBuf.contents_flushGet hpos]
  exact congrArg List.tail hwaiting

theorem exists_drained (horder : run.InOrder) (hidle : run.executing = false) :
    ∃ events last, (∀ event ∈ events, event = .call ∨ event = .callReturns) ∧
      TransitionSystem.run step run events = some last ∧ last.called = run.accepted := by
  generalize hwaiting : run.fifo.waiting = waiting
  induction waiting generalizing run with
  | nil =>
    refine ⟨[], run, fun _ hmem => absurd hmem List.not_mem_nil, rfl, ?_⟩
    rw [horder.idle hidle, hwaiting, List.append_nil]
  | cons ent rest ih =>
    obtain ⟨during, next, hcall, hreturn, hidle', hrest, haccepted⟩ :=
      exists_call horder hidle hwaiting
    have horder' := inOrder_step (inOrder_step horder hcall) hreturn
    obtain ⟨events, last, hevents, hlast, hcalled⟩ := ih horder' hidle' hrest
    refine ⟨.call :: .callReturns :: events, last, ?_, ?_, ?_⟩
    · simpa using hevents
    · exact run_cons_eq_some.mpr ⟨during, hcall,
        run_cons_eq_some.mpr ⟨next, hreturn, hlast⟩⟩
    · rw [hcalled, haccepted]

/-- `cb_q` is a queue of callbacks: every event does what it does to the queue,
the accepted callbacks are called in their order, and all of them are called if
the loop goes on. -/
theorem callbacks_inOrder (events : List CallbackEvent) :
    AlongRun step Refines start events ∧
      ∀ last, TransitionSystem.run step start events = some last →
        last.InOrder ∧ ∃ further drained,
          (∀ event ∈ further, event = .call ∨ event = .callReturns) ∧
            TransitionSystem.run step last further = some drained ∧
              drained.called = last.accepted := by
  constructor
  · refine @alongRun_of_invariant _ _ step (fun _ _ => True) Refines InOrder
      (fun _ _ horder _ => refines horder) ?_ start events inOrder_start
      (alongRun_of_forall (fun _ _ => trivial) start events)
    exact fun _ _ _ horder _ hstep => inOrder_step horder hstep
  · intro last hrun
    have horder := inOrder_run inOrder_start hrun
    refine ⟨horder, ?_⟩
    cases hexecuting : last.executing with
    | false => exact exists_drained horder hexecuting
    | true =>
        have hreturn : last.step .callReturns =
            some { last with
              cbQ := last.cbQ.flushGet schedulerQSize
              executing := false } := by
          rw [step, exec, hexecuting]
          rfl
        obtain ⟨further, drained, hfurther, hdrained, hcalled⟩ :=
          exists_drained (inOrder_step horder hreturn) rfl
        refine ⟨.callReturns :: further, drained, ?_,
          run_cons_eq_some.mpr ⟨_, hreturn, hdrained⟩, hcalled⟩
        intro event hevent
        obtain rfl | hlater := List.mem_cons.mp hevent
        · exact .inr rfl
        · exact hfurther event hlater

end CallbackRun

end Zboss
