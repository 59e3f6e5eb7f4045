import Zboss.AddressTranslation
import Zboss.LinkedChain
import Zboss.RingBuffer
import Mathlib.Data.Multiset.UnionInter

/-!
# The pool of packet buffers

The operations of `zb_bufpool.c` with the queues of the scheduler which they
use, and the calls by which running code and the scheduler use them.

A buffer and an entry of a queue are indices into their arrays, and the link
fields are kept apart from the others.  The union of a buffer shares only the
first four bytes of the header with the link of the free list, and of the
header only `is_in_buf`, which lies behind them, is present.  A function
returns `none` where the source asserts or would use a null pointer.
-/

namespace Zboss

open Function LinkedChain RingBuffer

def iobufPoolSize : ℕ := 16

def bufsLimit : ℕ := iobufPoolSize / 2

def schedulerQSize : ℕ := 16

def bufQSize : ℕ := 16

/-- `zb_cb_q_ent_t`; `param` is the buffer which the parameter refers to, if it
refers to one. -/
structure CbQEnt where
  func : ℕ
  param : Option ℕ
  deriving DecidableEq

/-- The parts of `ZG->bpool`, `ZG->sched` and `MAC_CTX()` which the pool uses -/
structure BufGlobals where
  bufNext : ℕ → Option ℕ
  isInBuf : ℕ → Bool
  head : Option ℕ
  bufsAllocated : Bool → ℕ
  cbQ : RingBuf CbQEnt
  delayedFunc : ℕ → ℕ
  delayedNext : ℕ → Option ℕ
  bufQueue : Bool → Queue ℕ
  bufFreelist : Option ℕ
  rxNeedBuf : Bool

namespace BufGlobals

def zeroed : BufGlobals where
  bufNext _ := none
  isInBuf _ := false
  head := none
  bufsAllocated _ := 0
  cbQ := ⟨fun _ => ⟨0, none⟩, 0, 0, 0⟩
  delayedFunc _ := 0
  delayedNext _ := none
  bufQueue _ := .empty
  bufFreelist := none
  rxNeedBuf := false

def pushFreeEnt (g : BufGlobals) (ent : ℕ) : BufGlobals :=
  { g with
    delayedNext := update g.delayedNext ent g.bufFreelist
    bufFreelist := some ent }

def insertWaiting (g : BufGlobals) (isIn : Bool) (ent : ℕ) : BufGlobals :=
  let inserted := (g.bufQueue isIn).insertTail g.delayedNext ent
  { g with
    bufQueue := update g.bufQueue isIn inserted.1
    delayedNext := inserted.2 }

def cutWaiting (g : BufGlobals) (isIn : Bool) : BufGlobals × Option ℕ :=
  let cut := (g.bufQueue isIn).cutHead g.delayedNext
  ({ g with bufQueue := update g.bufQueue isIn cut.2 }, cut.1)

def Initialized (g : BufGlobals) : Prop :=
  g.head ≠ none ∨ g.bufsAllocated false ≠ 0 ∨ g.bufsAllocated true ≠ 0

instance (g : BufGlobals) : Decidable g.Initialized :=
  inferInstanceAs (Decidable (_ ∨ _))

end BufGlobals

/-- The loop of `zb_sched_init` which fills the free list of entries. -/
def zbSchedInit (g : BufGlobals) : ℕ → BufGlobals
  | 0 => g
  | n + 1 => (zbSchedInit g n).pushFreeEnt n

def zbInitBuffers (g : BufGlobals) : BufGlobals :=
  if g.head ≠ none then g
  else
    { g with
      head := some 0
      bufNext := fun i =>
        if i < iobufPoolSize - 1 then some (i + 1)
        else if i = iobufPoolSize - 1 then none
        else g.bufNext i }

def zbScheduleCallback (g : BufGlobals) (func : ℕ) (param : Option ℕ) :
    BufGlobals × Except RetError Unit :=
  if schedulerQSize ≤ g.cbQ.written then (g, .error .overflow)
  else ({ g with cbQ := g.cbQ.put schedulerQSize ⟨func, param⟩ }, .ok ())

def popFreeBuf (g : BufGlobals) (isIn : Bool) (buf : ℕ) : BufGlobals :=
  { g with
    head := g.bufNext buf
    bufNext := update g.bufNext buf none
    bufsAllocated := update g.bufsAllocated isIn (g.bufsAllocated isIn + 1)
    isInBuf := update g.isInBuf buf isIn }

def zbGetBuf (g : BufGlobals) (isIn : Bool) :
    Option (BufGlobals × Option ℕ) :=
  if g.Initialized then
    if g.bufsAllocated isIn < bufsLimit then
      match g.head with
      | some buf => some (popFreeBuf g isIn buf, some buf)
      | none => some (g, none)
    else some (g, none)
  else none

def zbGetBufDelayed (g : BufGlobals) (callback : ℕ) (isIn : Bool) :
    Option (BufGlobals × Except RetError Unit) := do
  let (g, got) ← zbGetBuf g isIn
  match got with
  | some buf => some (zbScheduleCallback g callback (some buf))
  | none =>
      match g.bufFreelist with
      | some ent =>
          let g := { g with bufFreelist := g.delayedNext ent }
          let g := { g with delayedFunc := update g.delayedFunc ent callback }
          some (g.insertWaiting isIn ent, .ok ())
      | none => some (g, .error .error)

/-- The first part of `zb_free_buf`: put the buffer into the free list. -/
def pushFreeBuf (g : BufGlobals) (buf : ℕ) : BufGlobals :=
  let isIn := g.isInBuf buf
  { g with
    bufsAllocated := update g.bufsAllocated isIn (g.bufsAllocated isIn - 1)
    bufNext := update g.bufNext buf g.head
    head := some buf }

def zbFreeBuf (g : BufGlobals) (buf : ℕ) : Option BufGlobals := do
  let isIn := g.isInBuf buf
  if g.Initialized ∧ g.bufsAllocated isIn ≠ 0 then
    let g := pushFreeBuf g buf
    let (g, ent) :=
      -- a buffer which the receiver needs is not passed to a callback
      if isIn ∧ g.rxNeedBuf then (g, none) else g.cutWaiting isIn
    match ent with
    | none => some g
    | some ent =>
        let (g, got) ← zbGetBuf g isIn
        match got with
        | none => none
        | some buf =>
            let (g, _) := zbScheduleCallback g (g.delayedFunc ent) (some buf)
            some (g.pushFreeEnt ent)
  else none

/-- The pool with the buffers which running code owns; `dispatching` is set
while the callback at the head of the ring runs, and `receiving` while the
receiver of the MAC layer works on a buffer. -/
structure BufState where
  g : BufGlobals
  owned : Multiset ℕ
  dispatching : Bool
  receiving : Bool

inductive BufCall where
  | getBuf (isIn : Bool)
  | getBufDelayed (callback : ℕ) (isIn : Bool)
  | freeBuf (buf : ℕ)
  | scheduleCallback (func : ℕ) (param : Option ℕ)
  | dispatch
  | dispatchEnd
  | macReceive
  | macReceived

def BufState.dispatch (state : BufState) : Option BufState :=
  match state.dispatching, state.g.cbQ.peek with
  | false, some ent =>
      some
        { state with
          owned := state.owned + ent.param.toList
          dispatching := true }
  | _, _ => none

/-- The part of `zb_mac_main_loop` which asks for a buffer to receive. -/
def BufState.macReceive (state : BufState) : Option BufState :=
  if state.receiving then none
  else
    (zbGetBuf state.g true).map fun (g, got) =>
      match got with
      | some buf => { state with g := g, owned := buf ::ₘ state.owned, receiving := true }
      | none => { state with g := { g with rxNeedBuf := true } }

/-- A call; running code frees and passes on only buffers which it owns, and
keeps a buffer which it could not pass on. -/
def BufCall.apply (state : BufState) : BufCall → Option BufState
  | .getBuf isIn =>
      (zbGetBuf state.g isIn).map fun (g, got) =>
        { state with g := g, owned := state.owned + got.toList }
  | .getBufDelayed callback isIn =>
      (zbGetBufDelayed state.g callback isIn).map fun (g, _) => { state with g := g }
  | .freeBuf buf =>
      if buf ∈ state.owned then
        (zbFreeBuf state.g buf).map fun g =>
          { state with g := g, owned := state.owned.erase buf }
      else none
  | .scheduleCallback func param =>
      if (param.toList : Multiset ℕ) ≤ state.owned then
        match zbScheduleCallback state.g func param with
        | (g, .ok _) => some { state with g := g, owned := state.owned - param.toList }
        | (g, .error _) => some { state with g := g }
      else none
  | .dispatch => state.dispatch
  | .dispatchEnd =>
      if state.dispatching then
        some
          { state with
            g := { state.g with cbQ := state.g.cbQ.flushGet schedulerQSize }
            dispatching := false }
      else none
  | .macReceive => state.macReceive
  | .macReceived =>
      if state.receiving then
        some
          { state with
            g := { state.g with rxNeedBuf := false }
            receiving := false }
      else none

def BufState.start : BufState where
  g := zbInitBuffers (zbSchedInit .zeroed bufQSize)
  owned := 0
  dispatching := false
  receiving := false

end Zboss
