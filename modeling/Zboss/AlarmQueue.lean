import Zboss.BufferPool
import Zboss.DoublyLinked
import Zboss.TransitionSystem

/-!
# Delayed callbacks

The alarms of `zb_scheduler.c`: their queue, the free list of its entries and
the loop which calls the callbacks whose time has come.  An entry is an index
into `tm_buffer`; the links of all entries, which the queue and the free list
share, are those of the queue.  A function returns `none` where the source
would use a null pointer or run around in a circle of links.  What the code
does to start the hardware timer changes nothing here and is left out.
-/

namespace Zboss

open DoublyLinked LinkedChain TransitionSystem

def zbHalfMaxTimeVal : UInt16 := 65535 / 2

def zbTimeGe (a b : UInt16) : Bool := a - b < zbHalfMaxTimeVal

def zbAlarmAnyParam : UInt8 := -1

def zbAlarmAllCb : UInt8 := -2

structure TmQEnt where
  func : ℕ
  param : UInt8
  runTime : UInt16
  deriving DecidableEq

structure TmGlobals where
  tmBuffer : ℕ → TmQEnt
  tmQueue : DList ℕ
  tmFreelist : Option ℕ
  timer : UInt16

namespace TmGlobals

def runTime (g : TmGlobals) (ent : ℕ) : UInt16 := (g.tmBuffer ent).runTime

def pushFree (g : TmGlobals) (ent : ℕ) : TmGlobals :=
  { g with
    tmQueue :=
      { g.tmQueue with
        next := Function.update g.tmQueue.next ent g.tmFreelist }
    tmFreelist := some ent }

def zeroed (timer : UInt16) : TmGlobals where
  tmBuffer _ := ⟨0, 0, 0⟩
  tmQueue := .empty
  tmFreelist := none
  timer := timer

def schedInit (g : TmGlobals) : ℕ → TmGlobals
  | 0 => g
  | n + 1 => (schedInit g n).pushFree n

def insertTmqHead (g : TmGlobals) (nent : ℕ) : DList ℕ :=
  g.tmQueue.insertHead nent

end TmGlobals

/-- The part of `zb_schedule_alarm` which finds the place of the new entry. -/
def insertTmq (g : TmGlobals) (nent : ℕ) : Option (DList ℕ) :=
  match g.tmQueue.head with
  | none => some (g.insertTmqHead nent)
  | some head =>
      if zbTimeGe (g.runTime head) (g.runTime nent) then some (g.insertTmqHead nent)
      else do
        let found ←
          searchFrom g.tmQueue.next (fun ent => zbTimeGe (g.runTime nent) (g.runTime ent))
            (schedulerQSize + 1) (some head)
        match found with
        | some ent =>
            match g.tmQueue.prev ent with
            | some ent => g.tmQueue.insertAfter ent nent
            | none => some (g.insertTmqHead nent)
        | none => g.tmQueue.insertTail nent

def zbScheduleAlarm (g : TmGlobals) (func : ℕ) (param : UInt8) (runAfter : UInt16) :
    Option (TmGlobals × Except RetError Unit) :=
  match g.tmFreelist with
  | some nent => do
      let g :=
        { g with
          tmFreelist := g.tmQueue.next nent
          tmBuffer := Function.update g.tmBuffer nent ⟨func, param, g.timer + runAfter⟩ }
      let tmQueue ← insertTmq g nent
      some ({ g with tmQueue := tmQueue }, .ok ())
  | none => some (g, .error .overflow)

/-- Whether the request to cancel alarms of `func` is about this one. -/
def TmQEnt.isCancelledBy (ent : TmQEnt) (func : ℕ) (param : UInt8) : Bool :=
  ent.func = func && (param = zbAlarmAnyParam || param = zbAlarmAllCb || param = ent.param)

/-- The loop of `zb_schedule_alarm_cancel` from the entry `ent` on. -/
def cancelFrom (func : ℕ) (param : UInt8) :
    ℕ → Option ℕ → TmGlobals × Except RetError Unit →
      Option (TmGlobals × Except RetError Unit)
  | 0, _, _ => none
  | _ + 1, none, result => some result
  | fuel + 1, some ent, (g, ret) =>
      let next := g.tmQueue.next ent
      if (g.tmBuffer ent).isCancelledBy func param then do
        let tmQueue ← g.tmQueue.remove ent
        let g := { g with tmQueue := tmQueue }.pushFree ent
        if param ≠ zbAlarmAllCb then some (g, .ok ())
        else cancelFrom func param fuel next (g, .ok ())
      else cancelFrom func param fuel next (g, ret)

def zbScheduleAlarmCancel (g : TmGlobals) (func : ℕ) (param : UInt8) :
    Option (TmGlobals × Except RetError Unit) :=
  cancelFrom func param (schedulerQSize + 1) g.tmQueue.head (g, .error .notFound)

/-- The state of the alarms with that of the loop in
`zb_sched_loop_iteration`: the time `t` which it has read, and the entry whose
callback is running. -/
structure AlarmState where
  g : TmGlobals
  t : Option UInt16
  executing : Option ℕ

def AlarmState.start (timer : UInt16) : AlarmState where
  g := (TmGlobals.zeroed timer).schedInit schedulerQSize
  t := none
  executing := none

/-- What running code does, the four parts of the loop over alarms whose time
has come, and the timer. -/
inductive AlarmCall where
  | scheduleAlarm (func : ℕ) (param : UInt8) (runAfter : UInt16)
  | cancelAlarm (func : ℕ) (param : UInt8)
  | enterLoop
  | callAlarm
  | returnFromAlarm
  | leaveLoop
  | advanceTimer (ticks : UInt16)

/-- The call may come next: while the loop runs, only a callback called from it
schedules and cancels. -/
def AlarmCall.Enabled (state : AlarmState) : AlarmCall → Prop
  | scheduleAlarm _ _ _ | cancelAlarm _ _ => state.t = none ∨ state.executing ≠ none
  | enterLoop => state.t = none ∧ state.executing = none ∧ state.g.tmQueue.head ≠ none
  | callAlarm =>
      state.executing = none ∧ ∃ t ∈ state.t, ∃ ent ∈ state.g.tmQueue.head,
          zbTimeGe t (state.g.runTime ent)
  | returnFromAlarm => state.executing ≠ none
  | leaveLoop => state.t ≠ none ∧ state.executing = none
  | advanceTimer _ => True

instance AlarmCall.decidableEnabled (state : AlarmState) (call : AlarmCall) :
    Decidable (call.Enabled state) :=
  match call with
  | scheduleAlarm _ _ _ | cancelAlarm _ _ => inferInstanceAs (Decidable (_ ∨ _))
  | enterLoop => inferInstanceAs (Decidable (_ ∧ _ ∧ _))
  | callAlarm =>
      @instDecidableAnd _ _ inferInstance
        (@Option.decidableExistsMem _ _ (fun _ => inferInstance) state.t)
  | returnFromAlarm => inferInstanceAs (Decidable (_ ≠ _))
  | leaveLoop => inferInstanceAs (Decidable (_ ∧ _))
  | advanceTimer _ => inferInstanceAs (Decidable True)

def AlarmCall.exec (state : AlarmState) :
    AlarmCall → Option (AlarmState × Except RetError Unit)
  | scheduleAlarm func param runAfter => do
      let (g, ret) ← zbScheduleAlarm state.g func param runAfter
      some ({ state with g := g }, ret)
  | cancelAlarm func param => do
      let (g, ret) ← zbScheduleAlarmCancel state.g func param
      some ({ state with g := g }, ret)
  | enterLoop => some ({ state with t := some state.g.timer }, .ok ())
  | callAlarm =>
      let cut := state.g.tmQueue.cutHead
      some ({ state with g.tmQueue := cut.2, executing := cut.1 }, .ok ())
  | returnFromAlarm => do
      let ent ← state.executing
      some ({ state with g := state.g.pushFree ent, executing := none }, .ok ())
  | leaveLoop => some ({ state with t := none }, .ok ())
  | advanceTimer ticks => some ({ state with g.timer := state.g.timer + ticks }, .ok ())

def AlarmCall.apply (state : AlarmState) (call : AlarmCall) :
    Option AlarmState :=
  if call.Enabled state then (call.exec state).map Prod.fst else none

end Zboss
