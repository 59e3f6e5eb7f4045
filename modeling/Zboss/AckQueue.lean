import Zboss.ApsHeaderRoundTrip
import Zboss.OutstandingRequests

/-!
# The queue of frames to be acknowledged

A received frame which asks for an acknowledgement waits in `ack_q` until a
buffer for this is there: `zb_nlde_data_indication` requests the buffer, and the
callback takes the first frame of the queue. Nothing else ties a request to a
frame.
-/

namespace Zboss

open FrontReader RingBuffer TransitionSystem

def apsRetransAckQSize : ℕ := 4

def apsFcGetAckRequest (fc : UInt8) : UInt8 := (fc >>> 6) &&& 1

inductive ApsCallback where
  | apsSendAckAndContinue
  | nldeDataRequest

def ApsCallback.address (func : ApsCallback) : ℕ := func.ctorIdx

structure ApsFrame where
  nwkHdr : NwkAddrs
  apsdu : List UInt8

def ApsFrame.fc (frame : ApsFrame) : UInt8 := frame.apsdu.headD 0

def ApsFrame.Complete (frame : ApsFrame) : Prop :=
  addressingSize frame.fc + 1 < frame.apsdu.length

instance (frame : ApsFrame) : Decidable frame.Complete :=
  inferInstanceAs (Decidable (_ < _))

structure ApsAck where
  dstAddr : UInt16
  written : List UInt8

/-- The pool, `ack_q` and `ack_buf`, with the received data and command frames
in their order. -/
structure AckRun where
  pool : BufState
  ackQ : RingBuf ℕ
  ackBuf : Option ℕ
  packet : ℕ → ℕ
  received : List ApsFrame
  continued : List ℕ
  acks : List (ℕ × ApsAck)

namespace AckRun

/-- `zb_nlde_data_indication_continue`, as far as it acknowledges the frame -/
def zbNldeDataIndicationContinue (run : AckRun) (apsHdr : ApsHdr)
    (param : ℕ) : Option AckRun := do
  let number := run.packet param
  let frame ← run.received[number]?
  let apsHdr ← zbApsHdrParse (some frame.nwkHdr) apsHdr frame.apsdu
  let run := { run with continued := run.continued ++ [number] }
  match run.ackBuf with
  | some buf => do
      -- that there may be no room in the ring is ignored
      let pool ← (BufCall.scheduleCallback ApsCallback.nldeDataRequest.address
        (some buf)).apply run.pool
      some
        { run with
          pool := pool
          ackBuf := none
          acks := run.acks ++ [(number, ⟨apsHdr.srcAddr, apsAckSendHandle apsHdr⟩)] }
  | none => some run

def zbApsSendAckAndContinue (run : AckRun) (apsHdr : ApsHdr) (param : ℕ) :
    Option AckRun := do
  let inPkt ← run.ackQ.peek
  let run :=
    { run with
      pool := { run.pool with owned := inPkt ::ₘ run.pool.owned }
      ackQ := run.ackQ.flushGet apsRetransAckQSize
      ackBuf := some param }
  run.zbNldeDataIndicationContinue apsHdr inPkt

def note (run : AckRun) (param : ℕ) (frame : ApsFrame) : AckRun :=
  { run with
    packet := Function.update run.packet param run.received.length
    received := run.received ++ [frame] }

/-- The frame is queued, and a buffer is requested; whether the request is accepted
is not looked at. -/
def queueForAck (run : AckRun) (param : ℕ) : Option AckRun :=
  ((BufCall.getBufDelayed ApsCallback.apsSendAckAndContinue.address false).apply
      { run.pool with owned := run.pool.owned.erase param }).map fun pool =>
    { run with pool := pool, ackQ := run.ackQ.put apsRetransAckQSize param }

def Queues (run : AckRun) (frame : ApsFrame) : Prop :=
  apsFcGetAckRequest frame.fc ≠ 0 ∧ run.ackQ.written < apsRetransAckQSize

instance (run : AckRun) (frame : ApsFrame) : Decidable (run.Queues frame) :=
  inferInstanceAs (Decidable (_ ∧ _))

def zbNldeDataIndication (run : AckRun) (apsHdr : ApsHdr) (param : ℕ)
    (frame : ApsFrame) : Option AckRun :=
  if apsFcGetFrameType frame.fc = ApsFrameType.ack.code then
    ((BufCall.freeBuf param).apply run.pool).map fun pool => { run with pool := pool }
  else if run.Queues frame then (run.note param frame).queueForAck param
  else (run.note param frame).zbNldeDataIndicationContinue apsHdr param

/-- Other code uses the pool, a frame is received, and the scheduler calls
`zb_aps_send_ack_and_continue`. -/
inductive Event where
  | pool (call : BufCall)
  | receive (param : ℕ) (frame : ApsFrame) (apsHdr : ApsHdr)
  | grant (apsHdr : ApsHdr)

/-- Other code neither requests a buffer for the callback nor schedules it, and it
is called as `grant`. -/
def OtherCode (pool : BufState) : BufCall → Prop
  | .getBufDelayed callback _ => callback ≠ ApsCallback.apsSendAckAndContinue.address
  | .scheduleCallback callback _ => callback ≠ ApsCallback.apsSendAckAndContinue.address
  | .dispatch => ¬ ∃ ent ∈ pool.g.cbQ.peek,
      ent.func = ApsCallback.apsSendAckAndContinue.address
  | .getBuf _ | .freeBuf _ | .dispatchEnd | .macReceive | .macReceived => True

instance (pool : BufState) (call : BufCall) :
    Decidable (OtherCode pool call) :=
  match call with
  | .getBufDelayed _ _ | .scheduleCallback _ _ | .dispatch =>
      inferInstanceAs (Decidable (¬ _))
  | .getBuf _ | .freeBuf _ | .dispatchEnd | .macReceive | .macReceived => .isTrue trivial

def step (run : AckRun) : Event → Option AckRun
  | .pool call =>
      if OtherCode run.pool call then
        (call.apply run.pool).map fun pool => { run with pool := pool }
      else none
  | .receive param frame apsHdr =>
      if param ∈ run.pool.owned ∧ frame.Complete then
        run.zbNldeDataIndication apsHdr param frame
      else none
  | .grant apsHdr => do
      let ent ← run.pool.g.cbQ.peek
      if ent.func = ApsCallback.apsSendAckAndContinue.address then
        let pool ← run.pool.dispatch
        let param ← ent.param
        { run with pool := pool }.zbApsSendAckAndContinue apsHdr param
      else none

def start : AckRun where
  pool := .start
  ackQ := ⟨fun _ => 0, 0, 0, 0⟩
  ackBuf := none
  packet _ := 0
  received := []
  continued := []
  acks := []

def waiting (run : AckRun) : List ℕ := run.ackQ.contents apsRetransAckQSize

end AckRun

/-- The acknowledgement goes to the source of the frame and is made of what the
parser reads from the frame: its own fields. -/
structure ApsFrame.AckedBy (frame : ApsFrame) (ack : ApsAck) : Prop where
  dstAddr : ack.dstAddr = frame.nwkHdr.srcAddr
  fields : ∃ old apsHdr, zbApsHdrParse (some frame.nwkHdr) old frame.apsdu = some apsHdr ∧
      ack.written = apsHdr.ackFields.bytes ∧
        ∀ fields rest, frame.apsdu = fields.bytes ++ rest → apsHdr.Tells fields

namespace AckRun

structure Recorded (run : AckRun) : Prop where
  frames : (run.continued ++ run.waiting.map run.packet).Perm
    (List.range run.received.length)
  once : (run.acks.map Prod.fst).Sublist run.continued
  acks : ∀ ack ∈ run.acks, ∃ frame, run.received[ack.1]? = some frame ∧ frame.AckedBy ack.2

def Requested (run : AckRun) : Prop :=
  run.pool.Outstanding ApsCallback.apsSendAckAndContinue.address run.ackQ.written

def Serves (run : AckRun) : Prop :=
  ∀ buf apsHdr, run.pool.dispatching = false → run.pool.g.cbQ.peek =
        some ⟨ApsCallback.apsSendAckAndContinue.address, some buf⟩ →
      ∃ next, run.step (.grant apsHdr) = some next ∧
        next.continued.length = run.continued.length + 1

structure Paired (run : AckRun) : Prop where
  recorded : run.Recorded
  requested : run.Requested
  serves : run.Serves

/-- The request for a queued frame is not refused, and a request which waits is not
dropped when a buffer is given back. -/
def Grants (run : AckRun) : Event → Prop
  | .pool (.freeBuf buf) => buf ∈ run.pool.owned →
      ¬ run.pool.Drops ApsCallback.apsSendAckAndContinue.address buf
  | .pool _ => True
  | .receive param frame _ => param ∈ run.pool.owned → frame.Complete →
      if apsFcGetFrameType frame.fc = ApsFrameType.ack.code then
        ¬ run.pool.Drops ApsCallback.apsSendAckAndContinue.address param
      else run.Queues frame → ¬ run.pool.Refuses false
  | .grant _ => True

end AckRun

end Zboss
