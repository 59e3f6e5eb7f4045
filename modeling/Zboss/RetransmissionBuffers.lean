import Zboss.RetransmissionSlots
import Mathlib.Data.Finset.Basic

/-!
# Buffers of the retransmission table

Which buffers the lower layers hold, and which requests are not answered yet,
is followed through all events.  A request is answered by the confirm of its
data or by freeing its command.
-/

namespace Zboss

open Function Option List ApsEvent ApsGlobals RetransState TransitionSystem

/-- A buffer is in `lower` from `zb_nlde_data_request` to its confirm, and a
request which is to be acknowledged in `requests` until it is answered. -/
structure ApsRun where
  g : ApsGlobals
  lower : Finset ℕ
  requests : ℕ → Option ApsFrameType

def ApsOutput.answer : ApsOutput → Option (ℕ × ApsFrameType)
  | .dataConfirm buf _ => some (buf, .data)
  | .freeBuf buf => some (buf, .command)
  | .nldeDataRequest _ _ _ | .getPeerShortAddr _ => none

def ApsEvent.request : ApsEvent → Option (ℕ × ApsFrameType)
  | .dataRequest param req _ => if req.Acknowledged then some (param, .data) else none
  | .sendCommand param destAddr command _ _ =>
      if apsCommandNeedAck destAddr command then some (param, .command) else none
  | _ => none

def ApsEvent.Unacknowledged (g : ApsGlobals) (buf : ℕ) : ApsEvent → Prop
  | .dataRequest param _ _ => param = buf
  | .nldeConfirm param => param = buf ∧ (g.fc buf).ackRequest = false
  | _ => False

namespace ApsRun

def start (apsCounter : UInt8) : ApsRun where
  g := zbApsInit apsCounter
  lower := ∅
  requests _ := none

def Enabled (run : ApsRun) : ApsEvent → Prop
  | .dataRequest param _ _ | .sendCommand param _ _ _ _ =>
      param < iobufPoolSize ∧ param ∉ run.lower ∧ run.requests param = none
  | .nldeConfirm param => param ∈ run.lower
  | .ackFrame _ | .ackTimer _ _ => True

instance decidableEnabled (run : ApsRun) (event : ApsEvent) :
    Decidable (run.Enabled event) :=
  match event with
  | .dataRequest _ _ _ | .sendCommand _ _ _ _ _ => inferInstanceAs (Decidable (_ ∧ _ ∧ _))
  | .nldeConfirm param => inferInstanceAs (Decidable (param ∈ run.lower))
  | .ackFrame _ | .ackTimer _ _ => inferInstanceAs (Decidable True)

def begin (run : ApsRun) (event : ApsEvent) : ApsRun :=
  { run with
    lower :=
      match event with
      | .nldeConfirm param => run.lower.erase param
      | _ => run.lower
    requests :=
      match event.request with
      | some (param, kind) => update run.requests param (some kind)
      | none => run.requests }

def follow (run : ApsRun) : ApsOutput → ApsRun
  | .nldeDataRequest buf _ _ => { run with lower := insert buf run.lower }
  | .dataConfirm buf _ | .freeBuf buf =>
      { run with requests := update run.requests buf none }
  | .getPeerShortAddr _ => run

def step (run : ApsRun) (event : ApsEvent) : Option ApsRun :=
  if run.Enabled event then
    (event.exec run.g).map fun (g, outputs) =>
      outputs.foldl follow { run.begin event with g := g }
  else none

def Used (run : ApsRun) (i : ℕ) : Prop :=
  i < nApsRetransEntries ∧ (run.g.hash i).state ≠ .free

/-- The slot waits for its acknowledgement, which has the format of its packet
unless the packet is still below. -/
def AckFits (run : ApsRun) (hdr : ApsAckHdr) (i : ℕ) : Prop :=
  (run.g.hash i).state = .sentMacNotConfirmed ∨ ((run.g.hash i).state = .sentMacConfirmed ∧
      hdr.ackFormat = (run.g.fc (run.g.hash i).buf).ackFormat)

structure Tracked (run : ApsRun) : Prop where
  requested : ∀ i, run.Used i → run.requests (run.g.hash i).buf ≠ none
  recorded : ∀ buf kind, run.requests buf = some kind →
    (∃ i, run.Used i ∧ (run.g.hash i).buf = buf) ∨ (kind = .command ∧ buf ∈ run.lower)

end ApsRun

/-! ## The invariant -/

structure WaitsForAck (fc : ApsFc) (kind : ApsFrameType) : Prop where
  frameType : fc.frameType ≠ .ack
  kinds : (kind = .data ∧ fc.ackFormat = false) ∨ (kind = .command ∧ fc.ackFormat = true)
  ackRequest : fc.ackRequest = true

namespace ApsRun

structure BuffersInvariant (run : ApsRun) : Prop where
  tracked : run.Tracked
  distinct : ∀ i j, run.Used i → run.Used j →
    (run.g.hash i).buf = (run.g.hash j).buf → i = j
  headers : ∀ buf kind, run.requests buf = some kind →
    buf < iobufPoolSize ∧ WaitsForAck (run.g.fc buf) kind
  unacknowledged : ∀ buf ∈ run.lower, run.requests buf = none →
    (run.g.fc buf).ackRequest = false
  held : ∀ i, run.Used i → ((run.g.hash i).state = .sentMacConfirmed ↔
      (run.g.hash i).buf ∉ run.lower)
  freeBufs : ∀ i < nApsRetransEntries, (run.g.hash i).state = .free →
    (run.g.hash i).buf = noRetransBuf
  lowerBufs : ∀ buf ∈ run.lower, buf < iobufPoolSize
  alarms : ∀ i, i ∈ run.g.ackAlarms → run.Used i ∧ run.g.ackAlarms.count i = 1

variable {run : ApsRun} {g' : ApsGlobals} {i param : ℕ} {kind : ApsFrameType}

theorem buffersInvariant_start (apsCounter : UInt8) :
    (start apsCounter).BuffersInvariant where
  tracked := ⟨fun _ hi => absurd rfl hi.2, fun _ _ h => nomatch h⟩
  distinct _ _ hi := absurd rfl hi.2
  headers _ _ h := nomatch h
  unacknowledged _ h := absurd h (Finset.notMem_empty _)
  held _ hi := absurd rfl hi.2
  freeBufs _ _ _ := rfl
  lowerBufs _ h := absurd h (Finset.notMem_empty _)
  alarms _ h := absurd h (Multiset.notMem_zero _)

variable {ent : ApsRetransEnt} {run' : ApsRun}

theorem used_update {j : ℕ} (hhash : run'.g.hash = update run.g.hash i ent) :
    run'.Used j ↔ if j = i then j < nApsRetransEntries ∧ ent.state ≠ .free
      else run.Used j := by
  unfold Used
  rw [hhash]
  by_cases hj : j = i
  · subst hj
    rw [update_self, if_pos rfl]
  · rw [update_of_ne hj, if_neg hj]

section

variable (hinv : run.BuffersInvariant)

include hinv

theorem BuffersInvariant.store {fc : ApsFc} {accepted : Bool}
    (hfree : run.g.freeEnt = some i)
    (hparam : param < iobufPoolSize)
    (hnew : run.requests param = none) (hbuf : ent.buf = param)
    (hstate : ent.state = .sentMacNotConfirmed) (hwaits : WaitsForAck fc kind)
    (hhash : run'.g.hash = update run.g.hash i ent)
    (hfc : run'.g.fc = update run.g.fc param fc)
    (halarms : run'.g.ackAlarms =
      if accepted then i ::ₘ run.g.ackAlarms else run.g.ackAlarms)
    (hlower' : run'.lower = insert param run.lower)
    (hrequests' : run'.requests = update run.requests param (some kind)) :
    run'.BuffersInvariant := by
  obtain ⟨hi, hstatei⟩ := freeEnt_eq_some hfree
  have hother : ∀ j, run.Used j → (run.g.hash j).buf ≠ param := by
    intro j hj heq
    exact hinv.tracked.requested j hj (heq ▸ hnew)
  have hne : ∀ j, run.Used j → j ≠ i := by
    rintro j hj rfl
    exact hj.2 hstatei
  have hused : ∀ j, run'.Used j ↔ j = i ∨ run.Used j := by
    intro j
    rw [used_update hhash]
    grind
  have hhash' : ∀ j, run'.g.hash j = if j = i then ent else run.g.hash j := by
    intro j
    rw [hhash, update_apply]
  have hfc' : ∀ buf, run'.g.fc buf = if buf = param then fc else run.g.fc buf := by
    intro buf
    rw [hfc, update_apply]
  have hrequests : ∀ buf, run'.requests buf =
      if buf = param then some kind else run.requests buf := by
    intro buf
    rw [hrequests', update_apply]
  have hmem : ∀ buf, buf ∈ run'.lower ↔ buf = param ∨ buf ∈ run.lower := by
    intro buf
    rw [hlower', Finset.mem_insert]
  have hcount : run.g.ackAlarms.count i = 0 := by
    by_contra hpos
    exact hne i (hinv.alarms i (Multiset.count_pos.mp (Nat.pos_of_ne_zero hpos))).1 rfl
  constructor
  · constructor
    · have := hinv.tracked.requested
      grind
    · have := hinv.tracked.recorded
      grind
  · have := hinv.distinct
    grind
  · have := hinv.headers
    grind
  · have := hinv.unacknowledged
    grind
  · have := hinv.held
    grind
  · have := hinv.freeBufs
    grind
  · have := hinv.lowerBufs
    grind
  · have := hinv.alarms
    grind [Multiset.count_cons]

theorem BuffersInvariant.handDown
    {fc : ApsFc} {request : Option ApsFrameType} (hparam : param < iobufPoolSize)
    (hnew : run.requests param = none)
    (hrequest : ∀ kind, request = some kind → kind = .command ∧ WaitsForAck fc .command)
    (hnone : request = none → fc.ackRequest = false)
    (hhash : run'.g.hash = run.g.hash)
    (hfc : run'.g.fc = update run.g.fc param fc)
    (halarms : run'.g.ackAlarms = run.g.ackAlarms)
    (hlower' : run'.lower = insert param run.lower)
    (hrequests' : run'.requests = update run.requests param request) :
    run'.BuffersInvariant := by
  have hother : ∀ j, run.Used j → (run.g.hash j).buf ≠ param := by
    intro j hj heq
    exact hinv.tracked.requested j hj (heq ▸ hnew)
  have hused : ∀ j, run'.Used j ↔ run.Used j := by
    intro j
    rw [Used, Used, hhash]
  have hfc' : ∀ buf, run'.g.fc buf = if buf = param then fc else run.g.fc buf := by
    intro buf
    rw [hfc, update_apply]
  have hrequests : ∀ buf, run'.requests buf =
      if buf = param then request else run.requests buf := by
    intro buf
    rw [hrequests', update_apply]
  have hmem : ∀ buf, buf ∈ run'.lower ↔ buf = param ∨ buf ∈ run.lower := by
    intro buf
    rw [hlower', Finset.mem_insert]
  constructor
  · constructor
    · have := hinv.tracked.requested
      grind
    · have := hinv.tracked.recorded
      grind
  · have := hinv.distinct
    grind
  · have := hinv.headers
    grind
  · have := hinv.unacknowledged
    grind
  · have := hinv.held
    grind
  · have := hinv.freeBufs
    grind
  · have := hinv.lowerBufs
    grind
  · have := hinv.alarms
    grind

theorem BuffersInvariant.move (hi : run.Used i)
    (hbuf : ent.buf = (run.g.hash i).buf) (hstate : ent.state ≠ .free)
    (hhash : run'.g.hash = update run.g.hash i ent)
    (hfc : run'.g.fc = run.g.fc)
    (halarms : ∀ j, j ∈ run'.g.ackAlarms → run.Used j ∧ run'.g.ackAlarms.count j = 1)
    (hlower : ∀ buf, buf ≠ ent.buf → (buf ∈ run'.lower ↔ buf ∈ run.lower))
    (hheld : ent.state = .sentMacConfirmed ↔ ent.buf ∉ run'.lower)
    (hrequests : run'.requests = run.requests) :
    run'.BuffersInvariant := by
  have hhash' : ∀ j, run'.g.hash j = if j = i then ent else run.g.hash j := by
    intro j
    rw [hhash, update_apply]
  have hused : ∀ j, run'.Used j ↔ run.Used j := by
    intro j
    rw [used_update hhash]
    have := hi.1
    grind
  have hsame : ∀ j, (run'.g.hash j).buf = (run.g.hash j).buf := by
    intro j
    rw [hhash' j]
    grind
  have hrequested := hinv.tracked.requested
  have hrecorded := hinv.tracked.recorded
  constructor
  · constructor
    · intro j hj
      rw [hsame j, hrequests]
      exact hrequested j ((hused j).mp hj)
    · intro buf kind hrequest
      rw [hrequests] at hrequest
      by_cases heq : buf = ent.buf
      · subst heq
        exact Or.inl ⟨i, (hused i).mpr hi, (hsame i).trans hbuf.symm⟩
      · rw [hlower buf heq]
        grind
  · intro j k hj hk heq
    rw [hsame j, hsame k] at heq
    exact hinv.distinct j k ((hused j).mp hj) ((hused k).mp hk) heq
  · intro buf kind hrequest
    rw [hfc]
    rw [hrequests] at hrequest
    exact hinv.headers buf kind hrequest
  · have := hinv.unacknowledged
    grind
  · have := hinv.held
    have := hinv.distinct
    grind
  · have := hinv.freeBufs
    have := hi.2
    grind
  · intro buf hmem
    by_cases heq : buf = ent.buf
    · obtain ⟨kind, hkind⟩ :=
        ne_none_iff_exists'.mp (hrequested i hi)
      rw [heq, hbuf]
      exact (hinv.headers _ kind hkind).1
    · exact hinv.lowerBufs buf ((hlower buf heq).mp hmem)
  · grind

theorem BuffersInvariant.free (hi : run.Used i)
    (hbuf : ent.buf = noRetransBuf) (hstate : ent.state = .free)
    (hhash : run'.g.hash = update run.g.hash i ent)
    (hfc : run'.g.fc = run.g.fc)
    (halarms : ∀ j, j ∈ run'.g.ackAlarms → j ≠ i ∧ run.Used j ∧
      run'.g.ackAlarms.count j = 1)
    (hlower : run'.lower = run.lower.erase (run.g.hash i).buf)
    (hrequests' : run'.requests = update run.requests (run.g.hash i).buf none) :
    run'.BuffersInvariant := by
  have hhash' : ∀ j, run'.g.hash j = if j = i then ent else run.g.hash j := by
    intro j
    rw [hhash, update_apply]
  have hused : ∀ j, run'.Used j ↔ j ≠ i ∧ run.Used j := by
    intro j
    rw [used_update hhash]
    grind
  have hrequests : ∀ buf, run'.requests buf =
      if buf = (run.g.hash i).buf then none else run.requests buf := by
    intro buf
    rw [hrequests', update_apply]
  have hmem : ∀ buf, buf ∈ run'.lower ↔
      buf ≠ (run.g.hash i).buf ∧ buf ∈ run.lower := by
    intro buf
    rw [hlower, Finset.mem_erase]
  have hdistinct := hinv.distinct
  constructor
  · constructor
    · have := hinv.tracked.requested
      grind
    · have := hinv.tracked.recorded
      grind
  · grind
  · have := hinv.headers
    grind
  · have := hinv.unacknowledged
    grind
  · have := hinv.held
    grind
  · have := hinv.freeBufs
    grind
  · have := hinv.lowerBufs
    grind
  · grind

theorem BuffersInvariant.confirm (hg : run'.g = run.g)
    (hother : ∀ j, run.Used j → (run.g.hash j).buf ≠ param)
    (hlower : run'.lower = run.lower.erase param)
    (hrequests' : run'.requests = update run.requests param none) :
    run'.BuffersInvariant := by
  have hused : ∀ j, run'.Used j ↔ run.Used j := by
    intro j
    rw [Used, Used, hg]
  have hrequests : ∀ buf, run'.requests buf =
      if buf = param then none else run.requests buf := by
    intro buf
    rw [hrequests', update_apply]
  have hmem : ∀ buf, buf ∈ run'.lower ↔ buf ≠ param ∧ buf ∈ run.lower := by
    intro buf
    rw [hlower, Finset.mem_erase]
  constructor
  · constructor
    · have := hinv.tracked.requested
      grind
    · have := hinv.tracked.recorded
      grind
  · have := hinv.distinct
    grind
  · have := hinv.headers
    grind
  · have := hinv.unacknowledged
    grind
  · have := hinv.held
    grind
  · have := hinv.freeBufs
    grind
  · have := hinv.lowerBufs
    grind
  · have := hinv.alarms
    grind

end

theorem step_eq_some
    {event : ApsEvent} {next : ApsRun} (hstep : run.step event = some next) :
    run.Enabled event ∧ ∃ g outputs, event.exec run.g = some (g, outputs) ∧
      next = outputs.foldl follow { run.begin event with g := g } := by
  unfold step at hstep
  split at hstep
  · rename_i henabled
    obtain ⟨⟨g, outputs⟩, hexec, rfl⟩ := map_eq_some_iff.mp hstep
    exact ⟨henabled, g, outputs, hexec, rfl⟩
  · contradiction

structure Kept (run : ApsRun) (event : ApsEvent) (g : ApsGlobals)
    (outputs : List ApsOutput) : Prop where
  answers : ∀ output buf kind, output ∈ outputs → output.answer = some (buf, kind) →
      buf ∉ (run.begin event).lower ∧ ((run.begin event).requests buf = some kind ∨
          ((run.begin event).requests buf = none ∧ event.Unacknowledged run.g buf))
  invariant : (outputs.foldl follow { run.begin event with g := g }).BuffersInvariant

end ApsRun

inductive RequestEffect (g : ApsGlobals) (param : ℕ) (req : ApsdeDataReq)
    (accepted : Bool) : ApsGlobals × List ApsOutput → Prop
  | notSent {output : ApsOutput} (hack : ¬ req.Acknowledged)
      (houtput : output = .dataConfirm param none ∨ output = .getPeerShortAddr param) :
      RequestEffect g param req accepted (g, [output])
  | unacknowledged {g' : ApsGlobals} {addr : Option ℕ} {security : Bool}
      {fc : ApsFc} (hack : ¬ req.Acknowledged) (hhash : g'.hash = g.hash)
      (halarms : g'.ackAlarms = g.ackAlarms)
      (hfc : g'.fc = update g.fc param fc)
      (hrequest : fc.ackRequest = false) :
      RequestEffect g param req accepted (g', [.nldeDataRequest param addr security])
  | noSlot {g' : ApsGlobals} {outputs : List ApsOutput}
      (hack : req.Acknowledged) (hfull : g.freeEnt = none)
      (hhash : g'.hash = g.hash)
      (hanswer : ∀ output ∈ outputs, output.answer = none) :
      RequestEffect g param req accepted (g', outputs)
  | lastSlot {g' : ApsGlobals} {status : Option ApsStatus} {i : ℕ}
      (hack : req.Acknowledged) (hfree : g.freeEnt = some i)
      (hlast : i = nApsRetransEntries - 1)
      (hbuf : (g'.hash i).buf = param) (hstate : (g'.hash i).state ≠ .free) :
      RequestEffect g param req accepted (g', [.dataConfirm param status])
  | stored {g' : ApsGlobals} {addr : Option ℕ} {security : Bool} {i : ℕ}
      {ent : ApsRetransEnt} {fc : ApsFc} (hack : req.Acknowledged)
      (hfree : g.freeEnt = some i) (hlast : i ≠ nApsRetransEntries - 1)
      (hbuf : ent.buf = param) (hstate : ent.state = .sentMacNotConfirmed)
      (hwaits : WaitsForAck fc .data)
      (hhash : g'.hash = update g.hash i ent)
      (hfc : g'.fc = update g.fc param fc)
      (halarms : g'.ackAlarms = if accepted then i ::ₘ g.ackAlarms else g.ackAlarms) :
      RequestEffect g param req accepted (g', [.nldeDataRequest param addr security])

inductive TimerEffect (g : ApsGlobals) (i : ℕ) (accepted : Bool) :
    ApsGlobals × List ApsOutput → Prop
  | gaveUp {g' : ApsGlobals} {ackFormat : Bool}
      (hstate : (g.hash i).state = .sentMacConfirmed)
      (hlast : (g.hash i).apsRetries - 1 = 0)
      (hformat : ackFormat = (g.fc (g.hash i).buf).ackFormat)
      (hother : ∀ j, j ≠ i → g'.hash j = g.hash j)
      (hbuf : (g'.hash i).buf = (g.hash i).buf) (hfc : g'.fc = g.fc)
      (halarms : g'.ackAlarms = g.ackAlarms) :
      TimerEffect g i accepted (doneWithThisAck g' i ackFormat .noAck)
  | sentAgain {g' : ApsGlobals} {ent : ApsRetransEnt} {addr : Option ℕ}
      {security : Bool} (hstate : (g.hash i).state = .sentMacConfirmed)
      (hmore : (g.hash i).apsRetries - 1 ≠ 0)
      (hent : ent.state = .sentMacNotConfirmed)
      (hbuf : ent.buf = (g.hash i).buf)
      (hhash : g'.hash = update g.hash i ent) (hfc : g'.fc = g.fc)
      (halarms : g'.ackAlarms = if accepted then i ::ₘ g.ackAlarms else g.ackAlarms) :
      TimerEffect g i accepted (g', [.nldeDataRequest (g.hash i).buf addr security])
  | waits {g' : ApsGlobals} {ent : ApsRetransEnt}
      (hstate : (g.hash i).state ≠ .sentMacConfirmed)
      (hent : ent.state = (g.hash i).state) (hbuf : ent.buf = (g.hash i).buf)
      (hhash : g'.hash = update g.hash i ent) (hfc : g'.fc = g.fc)
      (halarms : g'.ackAlarms = if accepted then i ::ₘ g.ackAlarms else g.ackAlarms) :
      TimerEffect g i accepted (g', [])

theorem zbApsAckTimerCb_effect (g : ApsGlobals) (i : ℕ) (accepted : Bool) :
    TimerEffect g i accepted (zbApsAckTimerCb g i accepted) := by
  have hstart : ∀ ent : ApsRetransEnt, ((g.setEnt i ent).startAlarm accepted i).ackAlarms =
        if accepted then i ::ₘ g.ackAlarms else g.ackAlarms := by
    intro ent
    cases accepted <;> rfl
  have hhash : ∀ ent : ApsRetransEnt, ((g.setEnt i ent).startAlarm accepted i).hash =
        update g.hash i ent := fun ent => startAlarm_hash accepted
  have hfc : ∀ ent : ApsRetransEnt,
      ((g.setEnt i ent).startAlarm accepted i).fc = g.fc := fun ent =>
    startAlarm_fc accepted
  unfold zbApsAckTimerCb
  dsimp only
  split
  · rename_i hlast
    refine .gaveUp hlast.2 hlast.1 rfl ?_ ?_ rfl rfl
    · intro j hj
      exact update_of_ne hj ..
    · change (update g.hash i _ i).buf = _
      rw [update_self]
  · rename_i hnot
    split
    · rename_i hstate
      rw [hhash, update_self]
      have hagain : ∀ ent ent' : ApsRetransEnt,
          (((g.setEnt i ent).startAlarm accepted i).setEnt i ent').hash =
            update g.hash i ent' := by
        intro ent ent'
        rw [setEnt, hhash, update_idem]
      refine .sentAgain hstate (fun hlast => hnot ⟨hlast, hstate⟩) ?_ ?_
        (hagain _ _) (hfc _) (hstart _)
      · rfl
      · rfl
    · rename_i hstate
      refine .waits hstate ?_ ?_ (hhash _) (hfc _) (hstart _)
      · rfl
      · rfl

section Requests

variable {g : ApsGlobals} {param : ℕ} {req : ApsdeDataReq}

theorem startAlarm_ackAlarms (g : ApsGlobals) (accepted : Bool) (i : ℕ) :
    (g.startAlarm accepted i).ackAlarms =
      if accepted then i ::ₘ g.ackAlarms else g.ackAlarms := by
  cases accepted <;> rfl

theorem apsdeAckRequest_effect (hack : req.Acknowledged) (mode : ApsDeliveryMode)
    (addr : ℕ) (accepted : Bool) :
    RequestEffect g param req accepted
      (apsdeAckRequest g param req mode addr accepted) := by
  unfold apsdeAckRequest
  generalize hfilled :
    apsDataHdrFillDatareq g ⟨.data, mode, false, false, true⟩ param = filled
  have hhash : filled.hash = g.hash := by rw [← hfilled]; rfl
  have halarms : filled.ackAlarms = g.ackAlarms := by rw [← hfilled]; rfl
  have hfc : filled.fc = update g.fc param ⟨.data, mode, false, false, true⟩ := by
    rw [← hfilled]
    rfl
  have hfreeEnt := freeEnt_congr hhash
  dsimp only
  cases hfree : g.freeEnt with
  | none =>
    rw [saveAckData_of_none (hfreeEnt.trans hfree)]
    refine .noSlot hack hfree ((startAlarm_hash accepted).trans hhash) ?_
    intro output houtput
    rw [mem_singleton.mp houtput]
    rfl
  | some i =>
    rw [saveAckData_of_some (hfreeEnt.trans hfree)]
    by_cases hlast : i = nApsRetransEntries - 1
    · rw [if_pos hlast]
      have hself : (filled.setEnt i (savedEnt filled (filled.hash i) param req)).hash i =
            savedEnt filled (filled.hash i) param req :=
        update_self ..
      refine .lastSlot hack hfree hlast ?_ ?_
      · rw [hself]
        rfl
      · rw [hself]
        exact noConfusion
    · rw [if_neg hlast]
      have hhash' : ((filled.setEnt i
          (savedEnt filled (filled.hash i) param req)).startAlarm
            accepted i).hash = update g.hash i
              (savedEnt filled (filled.hash i) param req) :=
        (startAlarm_hash accepted).trans (congrArg (update · i _) hhash)
      refine .stored hack hfree hlast ?_ ?_
        ⟨ApsFrameType.noConfusion, Or.inl ⟨rfl, rfl⟩, rfl⟩ hhash'
        ((startAlarm_fc accepted).trans hfc) ?_
      · rfl
      · rfl
      · exact (startAlarm_ackAlarms _ accepted i).trans (by rw [← halarms]; rfl)

theorem zbApsdeDataRequest_effect (g : ApsGlobals) (param : ℕ) (req : ApsdeDataReq)
    (accepted : Bool) :
    RequestEffect g param req accepted (zbApsdeDataRequest g param req accepted) := by
  have hnot : (∀ mode addr dstEndpoint, req.dst ≠ .address mode addr dstEndpoint) →
      ¬ req.Acknowledged := by
    rintro hdst ⟨⟨mode, addr, dstEndpoint, haddress⟩, -⟩
    exact hdst mode addr dstEndpoint haddress
  unfold zbApsdeDataRequest
  split
  · rename_i hdst
    exact .notSent (hnot (by simp [hdst])) (Or.inl rfl)
  · rename_i hdst
    exact .notSent (hnot (by simp [hdst])) (Or.inr rfl)
  · rename_i hdst
    exact .unacknowledged (hnot (by simp [hdst])) rfl rfl rfl rfl
  · rename_i mode addr dstEndpoint hdst
    split
    · rename_i hopt
      exact apsdeAckRequest_effect ⟨⟨mode, addr, dstEndpoint, hdst⟩, hopt⟩ mode addr
        accepted
    · rename_i hopt
      exact .unacknowledged (fun hack => hopt hack.2) rfl rfl rfl rfl

end Requests

namespace ApsRun

variable {run : ApsRun} {i param : ℕ} {req : ApsdeDataReq}

variable {accepted : Bool} {outputs : List ApsOutput} {destAddr : ℕ}

theorem dataRequest_kept {g : ApsGlobals} (hinv : run.BuffersInvariant)
    (hslot : req.Acknowledged → ∃ i ∈ run.g.freeEnt, i ≠ nApsRetransEntries - 1)
    (henabled : run.Enabled (.dataRequest param req accepted))
    (hexec : (dataRequest param req accepted).exec run.g = some (g, outputs)) :
    run.Kept (.dataRequest param req accepted) g outputs := by
  obtain ⟨hparam, hlower, hnew⟩ := id henabled
  rw [exec, if_pos hparam] at hexec
  have hclosed : run.requests = update run.requests param none := by
    rw [← hnew, update_eq_self]
  have hbegin : ¬ req.Acknowledged →
      run.begin (.dataRequest param req accepted) = run := by
    intro hack
    simp only [begin, request, if_neg hack]
  have heffect := zbApsdeDataRequest_effect run.g param req accepted
  rw [some.inj hexec] at heffect
  cases heffect with
  | notSent hack houtput =>
    constructor
    · rintro output buf kind hmem hanswer
      obtain rfl := mem_singleton.mp hmem
      rw [hbegin hack]
      obtain rfl | rfl := houtput
      · cases hanswer
        exact ⟨hlower, Or.inr ⟨hnew, rfl⟩⟩
      · contradiction
    · rw [hbegin hack]
      obtain rfl | rfl := houtput
      · refine hinv.confirm rfl ?_ (Finset.erase_eq_of_notMem hlower).symm rfl
        intro j hj heq
        exact hinv.tracked.requested j hj (heq ▸ hnew)
      · exact hinv
  | unacknowledged hack hhash halarms hfc hfcrequest =>
    constructor
    · rintro output buf kind hmem hanswer
      obtain rfl := mem_singleton.mp hmem
      contradiction
    · rw [hbegin hack]
      refine hinv.handDown hparam hnew ?_ (fun _ => hfcrequest) hhash hfc
        halarms rfl hclosed
      intro kind hkind
      contradiction
  | noSlot hack hfull _ _ =>
    obtain ⟨i, hi, -⟩ := hslot hack
    rw [hfull] at hi
    contradiction
  | lastSlot hack hfree hlast _ _ =>
    obtain ⟨i, hi, hne⟩ := hslot hack
    rw [hfree] at hi
    obtain rfl := some.inj hi
    exact absurd hlast hne
  | stored hack hfree hlast hbuf hstate hwaits hhash hfc halarms =>
    constructor
    · rintro output buf kind hmem hanswer
      obtain rfl := mem_singleton.mp hmem
      contradiction
    · refine hinv.store hfree hparam hnew hbuf hstate hwaits hhash hfc halarms rfl ?_
      simp only [List.foldl, follow, begin, request, if_pos hack]

theorem zbApsSendCommand_fc (g : ApsGlobals) (param destAddr : ℕ) (command : UInt8)
    (secure accepted : Bool) :
    (zbApsSendCommand g param destAddr command secure accepted).1.fc = update g.fc param
        ⟨.command, .unicast, true, false, apsCommandNeedAck destAddr command⟩ := by
  unfold zbApsSendCommand setFc
  dsimp only
  split
  · split
    · rw [startAlarm_fc]
      rfl
    · rfl
  · rfl

theorem zbApsSendCommand_withoutSlot {g : ApsGlobals} {command : UInt8} (param : ℕ)
    (secure accepted : Bool)
    (hslot : apsCommandNeedAck destAddr command = false ∨ g.freeEnt = none) :
    (zbApsSendCommand g param destAddr command secure accepted).1.hash = g.hash ∧
      (zbApsSendCommand g param destAddr command secure accepted).1.ackAlarms =
        g.ackAlarms := by
  unfold zbApsSendCommand setFc
  dsimp only
  split
  · rename_i hneed
    obtain hnot | hfull := hslot
    · rw [hnot] at hneed
      contradiction
    · rw [hfull]
      exact ⟨rfl, rfl⟩
  · exact ⟨rfl, rfl⟩

theorem zbApsSendCommand_withSlot {g : ApsGlobals} {command : UInt8} (param : ℕ)
    (secure accepted : Bool) (hneed : apsCommandNeedAck destAddr command = true)
    (hfree : g.freeEnt = some i) :
    (zbApsSendCommand g param destAddr command secure accepted).1.hash =
        update g.hash i (commandEnt g (g.hash i) param destAddr secure) ∧
      (zbApsSendCommand g param destAddr command secure accepted).1.ackAlarms =
        if accepted then i ::ₘ g.ackAlarms else g.ackAlarms := by
  unfold zbApsSendCommand setFc
  dsimp only
  rw [hneed, if_pos rfl, hfree]
  exact ⟨startAlarm_hash accepted, startAlarm_ackAlarms _ accepted i⟩

section

variable (hinv : run.BuffersInvariant)

include hinv

theorem sendCommand_kept {command : UInt8} {secure accepted : Bool} {g : ApsGlobals}
    (henabled : run.Enabled (.sendCommand param destAddr command secure accepted))
    (hexec : (sendCommand param destAddr command secure accepted).exec run.g =
      some (g, outputs)) :
    run.Kept (.sendCommand param destAddr command secure accepted) g outputs := by
  obtain ⟨hparam, -, hnew⟩ := henabled
  rw [exec, if_pos hparam] at hexec
  have hsend := some.inj hexec
  have hfc := zbApsSendCommand_fc run.g param destAddr command secure accepted
  obtain rfl := congrArg Prod.snd hsend
  rw [hsend] at hfc
  constructor
  · rintro output buf kind hmem hanswer
    obtain rfl := mem_singleton.mp hmem
    contradiction
  · cases hneed : apsCommandNeedAck destAddr command with
    | false =>
      have hclosed : (run.begin
          (.sendCommand param destAddr command secure accepted)).requests =
            update run.requests param none := by
        simp only [begin, request, hneed]
        rw [← hnew, update_eq_self]
        rfl
      obtain ⟨hhash, halarms⟩ := zbApsSendCommand_withoutSlot
        param secure accepted (Or.inl hneed)
      rw [hsend] at hhash halarms
      refine hinv.handDown hparam hnew ?_ (fun _ => hneed) hhash hfc halarms rfl
        hclosed
      intro kind hkind
      contradiction
    | true =>
      rw [hneed] at hfc
      have hwaits : WaitsForAck ⟨.command, .unicast, true, false, true⟩ .command :=
        ⟨ApsFrameType.noConfusion, Or.inr ⟨rfl, rfl⟩, rfl⟩
      have hopen : (run.begin
          (.sendCommand param destAddr command secure accepted)).requests =
            update run.requests param (some .command) := by
        simp only [begin, request, hneed]
        rfl
      cases hfree : run.g.freeEnt with
      | none =>
        obtain ⟨hhash, halarms⟩ := zbApsSendCommand_withoutSlot
          param secure accepted (Or.inr hfree)
        rw [hsend] at hhash halarms
        refine hinv.handDown hparam hnew ?_ ?_ hhash hfc halarms rfl hopen
        · intro kind hkind
          exact ⟨(some.inj hkind).symm, hwaits⟩
        · intro hnone
          contradiction
      | some i =>
        obtain ⟨hhash, halarms⟩ := zbApsSendCommand_withSlot
          param secure accepted hneed hfree
        rw [hsend] at hhash halarms
        exact hinv.store hfree hparam hnew rfl rfl hwaits hhash hfc halarms rfl hopen

theorem BuffersInvariant.done
    {event : ApsEvent} {g : ApsGlobals} {ackFormat : Bool} (hi : run.Used i)
    (hlower : (run.begin event).lower = run.lower.erase (run.g.hash i).buf)
    (hrequests : (run.begin event).requests = run.requests)
    (hhash : ∀ j, j ≠ i → g.hash j = run.g.hash j)
    (hbuf : (g.hash i).buf = (run.g.hash i).buf) (hfc : g.fc = run.g.fc)
    (halarms : g.ackAlarms.erase i = run.g.ackAlarms.erase i)
    (hformat : ackFormat = (run.g.fc (run.g.hash i).buf).ackFormat)
    (status : ApsStatus) :
    run.Kept event (doneWithThisAck g i ackFormat status).1
      (doneWithThisAck g i ackFormat status).2 := by
  have hrequested := hinv.tracked.requested i hi
  obtain ⟨kind, hkind⟩ := ne_none_iff_exists'.mp hrequested
  have hwaits := (hinv.headers _ kind hkind).2
  constructor
  · intro output buf kind' hmem hanswer
    obtain rfl := mem_singleton.mp hmem
    rw [hlower, hrequests]
    obtain ⟨rfl, hdata⟩ | ⟨rfl, hcommand⟩ := hwaits.kinds
    · rw [hformat, hdata, hbuf] at hanswer
      cases hanswer
      exact ⟨Finset.notMem_erase _ _, Or.inl hkind⟩
    · rw [hformat, hcommand, hbuf] at hanswer
      cases hanswer
      exact ⟨Finset.notMem_erase _ _, Or.inl hkind⟩
  · have hfollow : ([if ackFormat then ApsOutput.freeBuf (g.hash i).buf
        else .dataConfirm (g.hash i).buf (some status)].foldl follow
          { run.begin event with
            g := (doneWithThisAck g i ackFormat status).1 }) =
        { run.begin event with
          g := (doneWithThisAck g i ackFormat status).1
          requests := update run.requests (run.g.hash i).buf none } := by
      rw [← hbuf, ← hrequests]
      cases ackFormat <;> rfl
    change ([if ackFormat then ApsOutput.freeBuf (g.hash i).buf
        else .dataConfirm (g.hash i).buf (some status)].foldl follow
          { run.begin event with
            g := (doneWithThisAck g i ackFormat status).1 }).BuffersInvariant
    rw [hfollow]
    have hupdate : (doneWithThisAck g i ackFormat status).1.hash = update run.g.hash i
          { g.hash i with
            state := .free, addr := noRetransAddr, buf := noRetransBuf } := by
      funext j
      by_cases hj : j = i
      · subst hj
        rw [update_self]
        exact update_self ..
      · rw [update_of_ne hj, ← hhash j hj]
        exact update_of_ne hj ..
    refine hinv.free hi rfl rfl hupdate hfc ?_ hlower rfl
    intro j hj
    change j ∈ g.ackAlarms.erase i at hj
    change j ≠ i ∧ run.Used j ∧ (g.ackAlarms.erase i).count j = 1
    rw [halarms] at hj ⊢
    have hused := hinv.alarms j (Multiset.mem_of_mem_erase hj)
    have hne : j ≠ i := by
      rintro rfl
      have hpos := Multiset.count_pos.mpr hj
      rw [Multiset.count_erase_self, hused.2] at hpos
      exact absurd hpos (Nat.lt_irrefl 0)
    rw [Multiset.count_erase_of_ne hne]
    exact ⟨hne, hused⟩

theorem nldeConfirm_kept {g : ApsGlobals} (henabled : run.Enabled (.nldeConfirm param))
    (hexec : (nldeConfirm param).exec run.g = some (g, outputs)) :
    run.Kept (.nldeConfirm param) g outputs := by
  have hmem : param ∈ run.lower := henabled
  have hgone : param ∉ (run.begin (.nldeConfirm param)).lower :=
    Finset.notMem_erase param run.lower
  have hunacknowledged : ∀ kind, run.requests param = some kind →
      WaitsForAck (run.g.fc param) kind := fun kind hkind =>
    (hinv.headers param kind hkind).2
  have hnone : (run.g.fc param).frameType = .ack ∨
      (run.g.fc param).ackRequest = false → run.requests param = none := by
    intro hfc
    cases hkind : run.requests param with
    | none => rfl
    | some kind =>
      obtain ⟨htype, -, hrequest⟩ := hunacknowledged kind hkind
      obtain hfc | hfc := hfc
      · exact absurd hfc htype
      · rw [hfc] at hrequest
        contradiction
  -- a packet for which no acknowledgement is waited is answered right away
  have hpass : ∀ output, run.requests param = none →
      (∃ status, output = .dataConfirm param status) ∨ output = .freeBuf param →
      run.Kept (.nldeConfirm param) run.g [output] := by
    intro output hclosed houtput
    constructor
    · rintro output' buf kind hmem' hanswer
      obtain rfl := mem_singleton.mp hmem'
      have hbuf : buf = param := by
        obtain ⟨status, rfl⟩ | rfl := houtput
        · cases hanswer
          rfl
        · cases hanswer
          rfl
      subst hbuf
      exact ⟨hgone, Or.inr ⟨hclosed, rfl, hinv.unacknowledged buf hmem hclosed⟩⟩
    · have hother : ∀ j, run.Used j → (run.g.hash j).buf ≠ param := by
        intro j hj heq
        exact hinv.tracked.requested j hj (heq ▸ hclosed)
      obtain ⟨status, rfl⟩ | rfl := houtput
      · exact hinv.confirm rfl hother rfl rfl
      · exact hinv.confirm rfl hother rfl rfl
  rw [exec, zbNldeDataConfirm] at hexec
  dsimp only at hexec
  split at hexec
  · rename_i htype
    obtain ⟨rfl, rfl⟩ := some_pair_inj hexec
    exact hpass _ (hnone (Or.inl htype)) (Or.inr rfl)
  · split at hexec
    · rename_i hrequest
      obtain ⟨rfl, rfl⟩ := some_pair_inj hexec
      exact hpass _ (hnone (Or.inr (Bool.eq_false_iff.mpr hrequest))) (Or.inl ⟨none, rfl⟩)
    · rename_i hrequest
      have hopen : run.requests param ≠ none := by
        intro hclosed
        rw [hinv.unacknowledged param hmem hclosed] at hrequest
        exact hrequest Bool.noConfusion
      obtain ⟨kind, hkind⟩ := ne_none_iff_exists'.mp hopen
      split at hexec
      · rename_i i hent
        obtain ⟨hlt, hbuf⟩ := entOfBuf_eq_some hent
        have hi : run.Used i := by
          refine ⟨hlt, ?_⟩
          intro hfree
          have hpool := hinv.lowerBufs param hmem
          rw [← hbuf, hinv.freeBufs i hlt hfree] at hpool
          exact absurd hpool (by decide)
        split at hexec
        · obtain ⟨rfl, rfl⟩ := some_pair_inj hexec
          exact hinv.done hi (by rw [hbuf]; rfl) rfl (fun _ _ => rfl) rfl rfl
            rfl (by rw [hbuf]) .ok
        · obtain ⟨rfl, rfl⟩ := some_pair_inj hexec
          constructor
          · intro _ _ _ h
            contradiction
          · have hhash : (run.g.setEnt i
                { run.g.hash i with state := .sentMacConfirmed }).hash =
                  update run.g.hash i
                    { run.g.hash i with state := .sentMacConfirmed } := rfl
            refine hinv.move hi ?_ ?_ hhash rfl hinv.alarms ?_ ?_ rfl
            · rfl
            · exact noConfusion
            · intro buf hne
              change buf ≠ (run.g.hash i).buf at hne
              rw [hbuf] at hne
              exact Finset.mem_erase.trans (and_iff_right hne)
            · refine iff_of_true rfl ?_
              change (run.g.hash i).buf ∉ _
              rw [hbuf]
              exact hgone
        · contradiction
      · rename_i hent
        obtain ⟨rfl, rfl⟩ := some_pair_inj hexec
        have hother : ∀ j, run.Used j → (run.g.hash j).buf ≠ param :=
          fun j hj => entOfBuf_eq_none hent hj.1
        obtain ⟨j, hj, heq⟩ | ⟨rfl, -⟩ := hinv.tracked.recorded param kind hkind
        · exact absurd heq (hother j hj)
        · constructor
          · rintro output' buf kind hmem' hanswer
            obtain rfl := mem_singleton.mp hmem'
            cases hanswer
            exact ⟨hgone, Or.inl hkind⟩
          · exact hinv.confirm rfl hother rfl rfl

theorem ackFrame_kept {hdr : ApsAckHdr} {g : ApsGlobals}
    (hfits : ∀ i ∈ run.g.entOfAck hdr, run.AckFits hdr i)
    (hexec : (ackFrame hdr).exec run.g = some (g, outputs)) :
    run.Kept (.ackFrame hdr) g outputs := by
  rw [exec, apsAckFrameHandle, some.injEq] at hexec
  split at hexec
  · rename_i i hent
    obtain ⟨hlt, -⟩ := entOfAck_eq_some hent
    split at hexec
    · rename_i hstate
      obtain ⟨rfl, rfl⟩ := Prod.mk.inj hexec
      have hi : run.Used i := ⟨hlt, hstate ▸ noConfusion⟩
      constructor
      · intro _ _ _ h
        contradiction
      · have hhash : (run.g.setEnt i
            { run.g.hash i with state := .sentMacNotConfirmedApsAcked }).hash =
              update run.g.hash i
                { run.g.hash i with
                  state := .sentMacNotConfirmedApsAcked } := rfl
        refine hinv.move hi ?_ ?_ hhash rfl hinv.alarms (fun _ _ => Iff.rfl) ?_ rfl
        · rfl
        · exact noConfusion
        refine iff_of_false noConfusion ?_
        intro hout
        have hheld := (hinv.held i hi).mpr hout
        rw [hstate] at hheld
        contradiction
    · rename_i hstate
      obtain ⟨rfl, rfl⟩ := Prod.mk.inj hexec
      obtain hnot | ⟨hconfirmed, hformat⟩ := hfits i hent
      · exact absurd hnot hstate
      · have hi : run.Used i := ⟨hlt, hconfirmed ▸ noConfusion⟩
        have hout := (hinv.held i hi).mp hconfirmed
        have hlower : (run.begin (.ackFrame hdr)).lower =
            run.lower.erase (run.g.hash i).buf :=
          (Finset.erase_eq_of_notMem hout).symm
        exact hinv.done hi hlower rfl (fun _ _ => rfl) rfl rfl rfl hformat .ok
  · obtain ⟨rfl, rfl⟩ := Prod.mk.inj hexec
    constructor
    · intro _ _ _ h
      contradiction
    · exact hinv

theorem ackTimer_kept {g : ApsGlobals}
    (hexec : (ackTimer i accepted).exec run.g = some (g, outputs)) :
    run.Kept (.ackTimer i accepted) g outputs := by
  rw [exec] at hexec
  split at hexec
  · rename_i hmem
    obtain ⟨hi, hcount⟩ := hinv.alarms i hmem
    -- the alarm which has called the timer was the only one of the slot
    have hgone : i ∉ run.g.ackAlarms.erase i := by
      rw [← Multiset.count_eq_zero, Multiset.count_erase_self, hcount]
    have halarms : ∀ alarms : Multiset ℕ,
        alarms = (if accepted then i ::ₘ run.g.ackAlarms.erase i
          else run.g.ackAlarms.erase i) →
        ∀ j ∈ alarms, run.Used j ∧ alarms.count j = 1 := by
      rintro alarms rfl j hj
      cases accepted with
      | true =>
        rw [if_pos rfl, Multiset.cons_erase hmem] at hj ⊢
        exact hinv.alarms j hj
      | false =>
        rw [if_neg Bool.noConfusion] at hj ⊢
        have hne : j ≠ i := fun heq => hgone (heq ▸ hj)
        rw [Multiset.count_erase_of_ne hne]
        exact hinv.alarms j (Multiset.mem_of_mem_erase hj)
    have heffect := zbApsAckTimerCb_effect
      { run.g with ackAlarms := run.g.ackAlarms.erase i } i accepted
    rw [some.inj hexec] at heffect
    generalize hresult : (g, outputs) = result at heffect
    cases heffect with
    | gaveUp hstate _ hformat hother hbuf hfc herased =>
      obtain ⟨rfl, rfl⟩ := Prod.mk.inj hresult
      have hout := (hinv.held i hi).mp hstate
      have hlower : (run.begin (.ackTimer i accepted)).lower =
          run.lower.erase (run.g.hash i).buf :=
        (Finset.erase_eq_of_notMem hout).symm
      refine hinv.done hi hlower rfl hother hbuf hfc ?_ hformat .noAck
      rw [herased]
      exact Multiset.erase_of_notMem hgone
    | sentAgain hstate _ hent hbuf hhash hfc halarms' =>
      obtain ⟨rfl, rfl⟩ := Prod.mk.inj hresult
      constructor
      · rintro output buf kind hmem' hanswer
        obtain rfl := mem_singleton.mp hmem'
        contradiction
      · refine hinv.move hi hbuf ?_ hhash hfc (halarms _ halarms') ?_ ?_ rfl
        · rw [hent]
          exact noConfusion
        · intro buf hne
          rw [hbuf] at hne
          exact Finset.mem_insert.trans (or_iff_right hne)
        · rw [hent, hbuf]
          exact iff_of_false noConfusion (not_not_intro (Finset.mem_insert_self ..))
    | waits hstate hent hbuf hhash hfc halarms' =>
      obtain ⟨rfl, rfl⟩ := Prod.mk.inj hresult
      constructor
      · intro _ _ _ h
        contradiction
      · refine hinv.move hi hbuf ?_ hhash hfc (halarms _ halarms')
          (fun _ _ => Iff.rfl) ?_ rfl
        · rw [hent]
          exact hi.2
        · rw [hent, hbuf]
          exact hinv.held i hi
  · contradiction

end

theorem g_foldl (outputs : List ApsOutput) (run : ApsRun) :
    (outputs.foldl follow run).g = run.g := by
  induction outputs generalizing run with
  | nil => rfl
  | cons output rest ih =>
    rw [foldl_cons, ih]
    cases output <;> rfl

end ApsRun

end Zboss
