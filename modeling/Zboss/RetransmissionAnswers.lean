import Zboss.RetransmissionBuffers

/-!
# Answers to acknowledged requests

A request is answered once, while the lower layers do not hold its buffer, and
until then confirms of the lower layers and expiries of alarms can still bring the
answer.
-/

namespace Zboss

open Function Option List ApsEvent ApsGlobals RetransState TransitionSystem

inductive ApsEvent.Internal : ApsEvent → Prop
  | confirm (param : ℕ) : Internal (.nldeConfirm param)
  | expiry (i : ℕ) : Internal (.ackTimer i true)

namespace ApsRun

/-- Whether or not the peer acknowledges, the request can be answered. -/
def Answerable (run : ApsRun) (buf : ℕ) : Prop :=
  ∃ events last, (∀ event ∈ events, event.Internal) ∧
    TransitionSystem.run step run events = some last ∧ last.requests buf = none

/-- Answers are those of unanswered requests of their kind, or about buffers
for which no acknowledgement is waited, and the lower layers do not hold the
buffer.  Every request is answered or can still be. -/
structure Sound (run : ApsRun) (event : ApsEvent) : Prop where
  answers : ∀ g outputs output buf kind, run.Enabled event →
    event.exec run.g = some (g, outputs) → output ∈ outputs →
      output.answer = some (buf, kind) → buf ∉ (run.begin event).lower ∧
          ((run.begin event).requests buf = some kind ∨
            ((run.begin event).requests buf = none ∧ event.Unacknowledged run.g buf))
  tracked : ∀ next, run.step event = some next → next.Tracked
  answered : ∀ next, run.step event = some next → ∀ buf, next.Answerable buf

/-- The timer starts its alarm again, and the slot is not left by the next
confirm. -/
def Restarts (run : ApsRun) (i : ℕ) : Prop :=
  (run.g.hash i).state ≠ .sentMacNotConfirmedApsAcked ∧
    ¬ ((run.g.hash i).apsRetries - 1 = 0 ∧ (run.g.hash i).state = .sentMacConfirmed)

/-- A request finds a slot before the last one; an acknowledgement is not for a
slot which is free or has been acknowledged already, and the format is that of
its packet unless the packet is still below; and the scheduler has room for the
alarms. -/
def Safe (run : ApsRun) : ApsEvent → Prop
  | .dataRequest param req accepted =>
      run.Enabled (.dataRequest param req accepted) → req.Acknowledged →
        (∃ i ∈ run.g.freeEnt, i ≠ nApsRetransEntries - 1) ∧ accepted = true
  | .sendCommand param destAddr command secure accepted =>
      run.Enabled (.sendCommand param destAddr command secure accepted) →
        apsCommandNeedAck destAddr command = true → run.g.freeEnt ≠ none → accepted = true
  | .ackFrame hdr => ∀ i ∈ run.g.entOfAck hdr, run.AckFits hdr i
  | .ackTimer i accepted => i ∈ run.g.ackAlarms → run.Restarts i → accepted = true
  | .nldeConfirm _ => True

/-! ## Progress -/

variable {run next : ApsRun} {event : ApsEvent} {i buf : ℕ}

theorem Answerable.of_step (hinternal : event.Internal)
    (hstep : run.step event = some next) (hnext : next.Answerable buf) :
    run.Answerable buf := by
  obtain ⟨events, last, hevents, hrun, hnone⟩ := hnext
  refine ⟨event :: events, last, ?_, run_cons_eq_some.mpr ⟨next, hstep, hrun⟩, hnone⟩
  intro other hother
  rcases mem_cons.mp hother with rfl | hother
  · exact hinternal
  · exact hevents other hother

theorem answerable_of_answered (hnone : run.requests buf = none) : run.Answerable buf :=
  ⟨[], run, by simp, rfl, hnone⟩

theorem answerable_of_answering (hinternal : event.Internal)
    (hstep : run.step event = some next) (hnone : next.requests buf = none) :
    run.Answerable buf :=
  .of_step hinternal hstep (answerable_of_answered hnone)

theorem BuffersInvariant.entOfBuf (hinv : run.BuffersInvariant) (hi : run.Used i) :
    run.g.entOfBuf (run.g.hash i).buf = some i := by
  cases hent : run.g.entOfBuf (run.g.hash i).buf with
  | none => exact absurd rfl (entOfBuf_eq_none hent hi.1)
  | some j =>
    obtain ⟨hlt, hbuf⟩ := entOfBuf_eq_some hent
    have hj : run.Used j := by
      refine ⟨hlt, fun hfree => ?_⟩
      obtain ⟨kind, hkind⟩ := ne_none_iff_exists'.mp (hinv.tracked.requested i hi)
      have hpool := (hinv.headers _ kind hkind).1
      rw [← hbuf, hinv.freeBufs j hlt hfree] at hpool
      exact absurd hpool (by decide)
    rw [hinv.distinct j i hj hi hbuf]

theorem BuffersInvariant.exec_nldeConfirm (hinv : run.BuffersInvariant) (hi : run.Used i) :
    ((run.g.hash i).state = .sentMacNotConfirmed →
      (nldeConfirm (run.g.hash i).buf).exec run.g =
        some (run.g.setEnt i { run.g.hash i with state := .sentMacConfirmed }, [])) ∧
      ((run.g.hash i).state = .sentMacNotConfirmedApsAcked →
        (nldeConfirm (run.g.hash i).buf).exec run.g =
          some (doneWithThisAck run.g i (run.g.fc (run.g.hash i).buf).ackFormat .ok)) := by
  obtain ⟨kind, hkind⟩ := ne_none_iff_exists'.mp (hinv.tracked.requested i hi)
  have hwaits := (hinv.headers _ kind hkind).2
  rw [exec, zbNldeDataConfirm]
  dsimp only
  rw [if_neg hwaits.frameType, if_neg (not_not.mpr hwaits.ackRequest), hinv.entOfBuf hi]
  constructor <;> intro hstate <;> simp only [hstate]

theorem step_of_exec {g : ApsGlobals} {outputs : List ApsOutput}
    (hexec : event.exec run.g = some (g, outputs)) (henabled : run.Enabled event) :
    run.step event =
      some (outputs.foldl follow { run.begin event with g := g }) := by
  rw [step, if_pos henabled, hexec]
  rfl

theorem requests_doneWithThisAck {start : ApsRun} {g : ApsGlobals}
    {ackFormat : Bool} {status : ApsStatus} (hbuf : (g.hash i).buf = buf) :
    ((doneWithThisAck g i ackFormat status).2.foldl follow start).requests buf =
      none := by
  rw [← hbuf]
  cases ackFormat <;> exact update_self ..

/-- The slot `i` waits for the acknowledgement of the packet in `buf`, and has so
many retries left. -/
structure Waiting (run : ApsRun) (i buf retries : ℕ) : Prop where
  invariant : run.BuffersInvariant
  used : run.Used i
  alarm : i ∈ run.g.ackAlarms
  buf : (run.g.hash i).buf = buf
  retries : (run.g.hash i).apsRetries = retries

variable {retries : ℕ}

theorem Waiting.mem_lower_iff (hwaiting : run.Waiting i buf retries) :
    buf ∈ run.lower ↔ (run.g.hash i).state ≠ .sentMacConfirmed := by
  have hheld := hwaiting.invariant.held i hwaiting.used
  rw [hwaiting.buf] at hheld
  exact (not_iff_comm.mp hheld.symm).symm

theorem waiting_of_update {ent : ApsRetransEnt} (hinv : next.BuffersInvariant)
    (hi : i < nApsRetransEntries) (hhash : next.g.hash = update run.g.hash i ent)
    (halarm : i ∈ next.g.ackAlarms) (hstate : ent.state ≠ .free)
    (hbuf : ent.buf = buf) (hretries : ent.apsRetries = retries) :
    next.Waiting i buf retries ∧ (next.g.hash i).state = ent.state := by
  have hself : next.g.hash i = ent := by rw [hhash, update_self]
  rw [← hself] at hstate hbuf hretries
  exact ⟨⟨hinv, ⟨hi, hstate⟩, halarm, hbuf, hretries⟩, congrArg _ hself⟩

theorem Waiting.confirmed (hwaiting : run.Waiting i buf retries)
    (hstate : (run.g.hash i).state = .sentMacNotConfirmed) :
    ∃ next, run.step (.nldeConfirm buf) = some next ∧
      next.Waiting i buf retries ∧ (next.g.hash i).state = .sentMacConfirmed := by
  obtain ⟨hinv, hused, halarm, hbuf, hretries⟩ := id hwaiting
  have hmem : buf ∈ run.lower := hwaiting.mem_lower_iff.mpr (hstate ▸ noConfusion)
  have hexec := (hinv.exec_nldeConfirm hused).1 hstate
  rw [hbuf] at hexec
  have hnext := (nldeConfirm_kept hinv hmem hexec).invariant
  exact ⟨_, step_of_exec hexec hmem,
    waiting_of_update hnext hused.1 rfl halarm noConfusion hbuf hretries⟩

theorem exec_ackTimer (halarm : i ∈ run.g.ackAlarms) (accepted : Bool) :
    (ackTimer i accepted).exec run.g =
      some (zbApsAckTimerCb { run.g with ackAlarms := run.g.ackAlarms.erase i } i
        accepted) := by
  rw [exec, if_pos halarm]

theorem zbApsAckTimerCb_gaveUp {g : ApsGlobals} (hlast : (g.hash i).apsRetries - 1 = 0)
    (hstate : (g.hash i).state = .sentMacConfirmed) (accepted : Bool) :
    zbApsAckTimerCb g i accepted =
      doneWithThisAck
        (g.setEnt i { g.hash i with apsRetries := (g.hash i).apsRetries - 1 }) i
        (g.fc (g.hash i).buf).ackFormat .noAck := by
  rw [zbApsAckTimerCb, if_pos ⟨hlast, hstate⟩]

theorem zbApsAckTimerCb_sentAgain {g : ApsGlobals} (hmore : (g.hash i).apsRetries - 1 ≠ 0)
    (hstate : (g.hash i).state = .sentMacConfirmed) :
    ∃ outputs, zbApsAckTimerCb g i true =
      ({ g with
          hash := update g.hash i
            { g.hash i with
              apsRetries := (g.hash i).apsRetries - 1
              state := .sentMacNotConfirmed }
          ackAlarms := i ::ₘ g.ackAlarms }, outputs) := by
  rw [zbApsAckTimerCb, if_neg fun h => hmore h.1]
  dsimp only
  rw [if_pos hstate]
  refine ⟨_, Prod.ext ?_ rfl⟩
  simp only [setEnt, startAlarm, if_true, update_self, update_idem]

theorem Waiting.gaveUp (hwaiting : run.Waiting i buf retries)
    (hstate : (run.g.hash i).state = .sentMacConfirmed) (hlast : retries - 1 = 0) :
    run.Answerable buf := by
  obtain ⟨-, -, halarm, hbuf, rfl⟩ := hwaiting
  have hexec := exec_ackTimer halarm true
  rw [@zbApsAckTimerCb_gaveUp i
    { run.g with ackAlarms := run.g.ackAlarms.erase i } hlast hstate] at hexec
  refine answerable_of_answering (.expiry i) (step_of_exec hexec trivial)
    (requests_doneWithThisAck ?_)
  change (update run.g.hash i _ i).buf = buf
  rw [update_self, ← hbuf]

theorem Waiting.sentAgain (hwaiting : run.Waiting i buf retries)
    (hstate : (run.g.hash i).state = .sentMacConfirmed) (hmore : retries - 1 ≠ 0) :
    ∃ next, run.step (.ackTimer i true) = some next ∧ next.Waiting i buf (retries - 1) ∧
        (next.g.hash i).state = .sentMacNotConfirmed := by
  obtain ⟨hinv, hused, halarm, hbuf, rfl⟩ := hwaiting
  have hexec := exec_ackTimer halarm true
  obtain ⟨outputs, hagain⟩ := @zbApsAckTimerCb_sentAgain i
    { run.g with ackAlarms := run.g.ackAlarms.erase i } hmore hstate
  rw [hagain] at hexec
  have hnext := (ackTimer_kept hinv hexec).invariant
  refine ⟨_, step_of_exec hexec trivial, ?_⟩
  refine waiting_of_update hnext hused.1 (congrArg hash (g_foldl outputs _)) ?_
    noConfusion hbuf rfl
  rw [g_foldl]
  exact Multiset.mem_cons_self ..

/-- Each round of an expiry and a confirm takes one retry. -/
theorem Waiting.answerable (hwaiting : run.Waiting i buf retries)
    (hstate : (run.g.hash i).state = .sentMacConfirmed) : run.Answerable buf := by
  induction retries generalizing run with
  | zero => exact hwaiting.gaveUp hstate rfl
  | succ retries ih =>
    by_cases hlast : retries = 0
    · exact hwaiting.gaveUp hstate hlast
    · obtain ⟨sent, hsent, hwaiting', hstate'⟩ := hwaiting.sentAgain hstate hlast
      obtain ⟨next, hnext, hwaiting'', hstate''⟩ := hwaiting'.confirmed hstate'
      exact .of_step (.expiry i) hsent
        (.of_step (.confirm buf) hnext (ih hwaiting'' hstate''))

def Alarmed (g : ApsGlobals) : Prop :=
  ∀ i < nApsRetransEntries, (g.hash i).state ≠ .free →
    (g.hash i).state ≠ .sentMacNotConfirmedApsAcked → i ∈ g.ackAlarms

theorem BuffersInvariant.acked_answerable (hinv : run.BuffersInvariant)
    (hi : run.Used i) (hstate : (run.g.hash i).state = .sentMacNotConfirmedApsAcked) :
    run.Answerable (run.g.hash i).buf := by
  have hmem : (run.g.hash i).buf ∈ run.lower := by
    by_contra hout
    have hheld := (hinv.held i hi).mpr hout
    rw [hstate] at hheld
    contradiction
  have hexec := (hinv.exec_nldeConfirm hi).2 hstate
  exact answerable_of_answering (.confirm _) (step_of_exec hexec hmem)
    (requests_doneWithThisAck rfl)

theorem BuffersInvariant.slot_answerable (hinv : run.BuffersInvariant)
    (halarmed : Alarmed run.g) (hi : run.Used i) :
    run.Answerable (run.g.hash i).buf := by
  by_cases hacked : (run.g.hash i).state = .sentMacNotConfirmedApsAcked
  · exact hinv.acked_answerable hi hacked
  · have hwaiting : run.Waiting i (run.g.hash i).buf (run.g.hash i).apsRetries :=
      ⟨hinv, hi, halarmed i hi.1 hi.2 hacked, rfl, rfl⟩
    cases hstate : (run.g.hash i).state with
    | free => exact absurd hstate hi.2
    | sentMacNotConfirmedApsAcked => exact absurd hstate hacked
    | sentMacConfirmed => exact hwaiting.answerable hstate
    | sentMacNotConfirmed =>
      obtain ⟨next, hnext, hwaiting', hstate'⟩ := hwaiting.confirmed hstate
      exact .of_step (.confirm _) hnext (hwaiting'.answerable hstate')

/-- A command without a slot is answered by its confirm. -/
theorem BuffersInvariant.answerable (hinv : run.BuffersInvariant)
    (halarmed : Alarmed run.g) (buf : ℕ) : run.Answerable buf := by
  cases hkind : run.requests buf with
  | none => exact answerable_of_answered hkind
  | some kind =>
    by_cases hslot : ∃ i, run.Used i ∧ (run.g.hash i).buf = buf
    · obtain ⟨i, hi, rfl⟩ := hslot
      exact hinv.slot_answerable halarmed hi
    · obtain hrecorded | ⟨-, hmem⟩ := hinv.tracked.recorded buf kind hkind
      · exact absurd hrecorded hslot
      · have hwaits := (hinv.headers buf kind hkind).2
        have hexec : (nldeConfirm buf).exec run.g = some (run.g, [.freeBuf buf]) := by
          rw [exec, zbNldeDataConfirm]
          dsimp only
          rw [if_neg hwaits.frameType, if_neg (not_not.mpr hwaits.ackRequest)]
          cases hent : run.g.entOfBuf buf with
          | none => rfl
          | some i =>
            obtain ⟨hlt, hbuf⟩ := entOfBuf_eq_some hent
            refine absurd ⟨i, ⟨hlt, fun hfree => ?_⟩, hbuf⟩ hslot
            have hpool := hinv.lowerBufs buf hmem
            rw [← hbuf, hinv.freeBufs i hlt hfree] at hpool
            exact absurd hpool (by decide)
        exact answerable_of_answering (.confirm _) (step_of_exec hexec hmem)
          (update_self ..)

/-! ## The alarms -/

variable {g : ApsGlobals} {ent : ApsRetransEnt} {outputs : List ApsOutput}

theorem Alarmed.congr (halarmed : Alarmed run.g) (hhash : g.hash = run.g.hash)
    (halarms : g.ackAlarms = run.g.ackAlarms) : Alarmed g := by
  rw [Alarmed, hhash, halarms]
  exact halarmed

theorem Alarmed.update (halarmed : Alarmed run.g)
    (hhash : g.hash = Function.update run.g.hash i ent)
    (hothers : ∀ j, j ≠ i → j ∈ run.g.ackAlarms → j ∈ g.ackAlarms)
    (hent : ent.state ≠ .free → ent.state ≠ .sentMacNotConfirmedApsAcked →
      i ∈ g.ackAlarms) : Alarmed g := by
  intro j hj
  rw [hhash]
  by_cases hne : j = i
  · subst hne
    rw [update_self]
    exact hent
  · rw [update_of_ne hne]
    exact fun hused hacked => hothers j hne (halarmed j hj hused hacked)

theorem Alarmed.done (halarmed : Alarmed run.g)
    (hhash : ∀ j, j ≠ i → g.hash j = run.g.hash j)
    (halarms : ∀ j, j ≠ i → j ∈ run.g.ackAlarms → j ∈ g.ackAlarms)
    (ackFormat : Bool) (status : ApsStatus) :
    Alarmed (doneWithThisAck g i ackFormat status).1 := by
  have hdone : (doneWithThisAck g i ackFormat status).1.hash =
      Function.update run.g.hash i ((doneWithThisAck g i ackFormat status).1.hash i) := by
    funext j
    by_cases hj : j = i
    · rw [hj, update_self]
    · rw [update_of_ne hj, ← hhash j hj]
      exact update_of_ne hj ..
  refine halarmed.update hdone ?_ ?_
  · intro j hj hmem
    exact (Multiset.mem_erase_of_ne hj).mpr (halarms j hj hmem)
  · have hfree : (doneWithThisAck g i ackFormat status).1.hash i =
        { g.hash i with
          state := .free, addr := noRetransAddr, buf := noRetransBuf } :=
      update_self ..
    exact fun hused => absurd (congrArg ApsRetransEnt.state hfree) hused

theorem alarmed_dataRequest {param : ℕ} {req : ApsdeDataReq} {accepted : Bool}
    (halarmed : Alarmed run.g)
    (hslot : req.Acknowledged →
      (∃ i ∈ run.g.freeEnt, i ≠ nApsRetransEntries - 1) ∧ accepted = true) :
    Alarmed (zbApsdeDataRequest run.g param req accepted).1 := by
  have heffect := zbApsdeDataRequest_effect run.g param req accepted
  generalize zbApsdeDataRequest run.g param req accepted = result at heffect
  cases heffect with
  | notSent _ _ => exact halarmed
  | unacknowledged _ hhash halarms _ _ => exact halarmed.congr hhash halarms
  | noSlot hack hfull _ _ =>
    obtain ⟨⟨i, hi, -⟩, -⟩ := hslot hack
    rw [hfull] at hi
    contradiction
  | lastSlot hack hfree hlast _ _ =>
    obtain ⟨⟨i, hi, hne⟩, -⟩ := hslot hack
    rw [hfree] at hi
    exact absurd (some.inj hi ▸ hlast) hne
  | stored hack _ _ _ _ _ hhash _ halarms =>
    rw [(hslot hack).2, if_pos rfl] at halarms
    refine halarmed.update hhash ?_ ?_
    · intro j _ hmem
      rw [halarms]
      exact Multiset.mem_cons_of_mem hmem
    · intro _ _
      rw [halarms]
      exact Multiset.mem_cons_self ..

theorem alarmed_sendCommand {param destAddr : ℕ} {command : UInt8}
    {secure accepted : Bool} (halarmed : Alarmed run.g)
    (hroom : apsCommandNeedAck destAddr command = true → run.g.freeEnt ≠ none →
      accepted = true) :
    Alarmed (zbApsSendCommand run.g param destAddr command secure accepted).1 := by
  by_cases hslot : apsCommandNeedAck destAddr command = false ∨ run.g.freeEnt = none
  · obtain ⟨hhash, halarms⟩ := zbApsSendCommand_withoutSlot param secure accepted hslot
    exact halarmed.congr hhash halarms
  · obtain ⟨hneed, hsome⟩ := not_or.mp hslot
    rw [Bool.not_eq_false] at hneed
    obtain ⟨i, hfree⟩ := ne_none_iff_exists'.mp hsome
    obtain ⟨hhash, halarms⟩ := zbApsSendCommand_withSlot param secure accepted hneed hfree
    rw [hroom hneed hsome, if_pos rfl] at halarms
    rw [hroom hneed hsome] at hhash ⊢
    refine halarmed.update hhash ?_ ?_
    · intro j _ hmem
      rw [halarms]
      exact Multiset.mem_cons_of_mem hmem
    · intro _ _
      rw [halarms]
      exact Multiset.mem_cons_self ..

theorem alarmed_nldeConfirm {param : ℕ} (halarmed : Alarmed run.g)
    (hexec : (nldeConfirm param).exec run.g = some (g, outputs)) : Alarmed g := by
  rw [exec, zbNldeDataConfirm] at hexec
  dsimp only at hexec
  split at hexec
  · obtain ⟨rfl, -⟩ := some_pair_inj hexec
    exact halarmed
  · split at hexec
    · obtain ⟨rfl, -⟩ := some_pair_inj hexec
      exact halarmed
    · split at hexec
      · rename_i i hent
        split at hexec
        · obtain ⟨rfl, -⟩ := some_pair_inj hexec
          exact halarmed.done (fun _ _ => rfl) (fun _ _ hmem => hmem)
            (run.g.fc param).ackFormat .ok
        · rename_i hstate
          obtain ⟨rfl, -⟩ := some_pair_inj hexec
          refine halarmed.update rfl (fun _ _ hmem => hmem) fun _ _ => ?_
          exact halarmed i (entOfBuf_eq_some hent).1 (hstate ▸ noConfusion)
            (hstate ▸ noConfusion)
        · contradiction
      · obtain ⟨rfl, -⟩ := some_pair_inj hexec
        exact halarmed

theorem alarmed_ackFrame (halarmed : Alarmed run.g) (hdr : ApsAckHdr) :
    Alarmed (apsAckFrameHandle run.g hdr).1 := by
  unfold apsAckFrameHandle
  split
  · split
    · exact halarmed.update rfl (fun _ _ hmem => hmem) fun _ hacked => absurd rfl hacked
    · exact halarmed.done (fun _ _ => rfl) (fun _ _ hmem => hmem) _ _
  · exact halarmed

theorem alarmed_ackTimer {accepted : Bool} (halarmed : Alarmed run.g)
    (hroom : run.Restarts i → accepted = true) :
    Alarmed (zbApsAckTimerCb
      { run.g with ackAlarms := run.g.ackAlarms.erase i } i accepted).1 := by
  have heffect := zbApsAckTimerCb_effect
    { run.g with ackAlarms := run.g.ackAlarms.erase i } i accepted
  generalize zbApsAckTimerCb { run.g with ackAlarms := run.g.ackAlarms.erase i } i
    accepted = result at heffect
  have hothers : ∀ alarms : Multiset ℕ,
      alarms = (if accepted then i ::ₘ run.g.ackAlarms.erase i
        else run.g.ackAlarms.erase i) →
      ∀ j, j ≠ i → j ∈ run.g.ackAlarms → j ∈ alarms := by
    rintro alarms rfl j hj hmem
    have herase := (Multiset.mem_erase_of_ne hj).mpr hmem
    split
    · exact Multiset.mem_cons_of_mem herase
    · exact herase
  cases heffect with
  | gaveUp _ _ _ hother _ _ halarms =>
    refine halarmed.done hother (fun j hj hmem => ?_) _ _
    rw [halarms]
    exact (Multiset.mem_erase_of_ne hj).mpr hmem
  | sentAgain hstate hmore _ _ hhash _ halarms =>
    refine halarmed.update hhash (hothers _ halarms) fun _ _ => ?_
    rw [halarms, hroom ⟨hstate ▸ noConfusion, fun hlast => hmore hlast.1⟩, if_pos rfl]
    exact Multiset.mem_cons_self ..
  | waits hstate hent _ hhash _ halarms =>
    refine halarmed.update hhash (hothers _ halarms) fun _ hacked => ?_
    rw [hent] at hacked
    rw [halarms, hroom ⟨hacked, fun hlast => hstate hlast.2⟩, if_pos rfl]
    exact Multiset.mem_cons_self ..

structure AnswersInvariant (run : ApsRun) : Prop where
  buffers : run.BuffersInvariant
  alarmed : Alarmed run.g

theorem answersInvariant_start (apsCounter : UInt8) :
    (start apsCounter).AnswersInvariant :=
  ⟨buffersInvariant_start apsCounter, fun _ _ hused => absurd rfl hused⟩

section

variable (hinv : run.AnswersInvariant) (hsafe : run.Safe event)
  (henabled : run.Enabled event) (hexec : event.exec run.g = some (g, outputs))

include hinv hsafe henabled hexec

theorem kept_of_safe : run.Kept event g outputs := by
  cases event with
  | dataRequest param req accepted =>
    exact dataRequest_kept hinv.buffers (fun hack => (hsafe henabled hack).1) henabled
      hexec
  | sendCommand param destAddr command secure accepted =>
    exact sendCommand_kept hinv.buffers henabled hexec
  | nldeConfirm param => exact nldeConfirm_kept hinv.buffers henabled hexec
  | ackFrame hdr => exact ackFrame_kept hinv.buffers hsafe hexec
  | ackTimer i accepted => exact ackTimer_kept hinv.buffers hexec

theorem alarmed_of_safe : Alarmed g := by
  have hresult : ∀ result : ApsGlobals × List ApsOutput,
      some result = some (g, outputs) → Alarmed result.1 → Alarmed g := by
    intro result heq halarmed
    rwa [some.inj heq] at halarmed
  cases event with
  | dataRequest param req accepted =>
    rw [exec, if_pos henabled.1] at hexec
    exact hresult _ hexec (alarmed_dataRequest hinv.alarmed (hsafe henabled))
  | sendCommand param destAddr command secure accepted =>
    rw [exec, if_pos henabled.1] at hexec
    exact hresult _ hexec (alarmed_sendCommand hinv.alarmed (hsafe henabled))
  | nldeConfirm param => exact alarmed_nldeConfirm hinv.alarmed hexec
  | ackFrame hdr => exact hresult _ hexec (alarmed_ackFrame hinv.alarmed hdr)
  | ackTimer i accepted =>
    rw [exec] at hexec
    split at hexec
    · rename_i hmem
      exact hresult _ hexec (alarmed_ackTimer hinv.alarmed (hsafe hmem))
    · contradiction

end

theorem AnswersInvariant.step (hinv : run.AnswersInvariant) (hsafe : run.Safe event)
    (hstep : run.step event = some next) : next.AnswersInvariant := by
  obtain ⟨henabled, g, outputs, hexec, rfl⟩ := step_eq_some hstep
  refine ⟨(kept_of_safe hinv hsafe henabled hexec).invariant, ?_⟩
  rw [g_foldl]
  exact alarmed_of_safe hinv hsafe henabled hexec

theorem sound_of_safe (hinv : run.AnswersInvariant) (hsafe : run.Safe event) :
    run.Sound event where
  answers _ _ output buf kind henabled hexec :=
    (kept_of_safe hinv hsafe henabled hexec).answers output buf kind
  tracked _ hstep := (hinv.step hsafe hstep).buffers.tracked
  answered _ hstep :=
    (hinv.step hsafe hstep).buffers.answerable (hinv.step hsafe hstep).alarmed

/-- In a run of safe steps from the start all answers are right, and none is
lost. -/
theorem alongRun_sound_of_safe (apsCounter : UInt8) (events : List ApsEvent)
    (hsafe : AlongRun step Safe (start apsCounter) events) :
    AlongRun step Sound (start apsCounter) events := by
  refine alongRun_of_invariant (fun _ _ => sound_of_safe) ?_
    (answersInvariant_start apsCounter) hsafe
  intro run event next hinv hsafe hstep
  exact hinv.step hsafe hstep

/-- The acknowledgement of `requestToOne`, when it is the first request. -/
def ackOfOne : ApsAckHdr where
  srcAddr := 1
  ackFormat := false
  clusterid := 6
  srcEndpoint := 10
  dstEndpoint := 10
  apsCounter := 0

def sentTwice : List ApsEvent :=
  [.dataRequest 5 requestToOne true, .nldeConfirm 5, .ackTimer 0 true]

/-- The second copy is confirmed after the acknowledgement of the first one. -/
theorem alongRun_sound_of_safe_acknowledgedOnce : AlongRun step Sound (start 0)
      (sentTwice ++ [.ackFrame ackOfOne, .nldeConfirm 5]) := by
  refine alongRun_sound_of_safe 0 _ ⟨?_, ?_⟩
  · exact fun _ _ => ⟨⟨0, rfl, by decide⟩, rfl⟩
  · rintro _ ⟨⟩
    refine ⟨trivial, ?_⟩
    rintro _ ⟨⟩
    refine ⟨fun _ _ => rfl, ?_⟩
    rintro _ ⟨⟩
    refine ⟨?_, ?_⟩
    · rintro i ⟨⟩
      exact Or.inl rfl
    · rintro _ ⟨⟩
      exact ⟨trivial, fun _ _ => trivial⟩

/-- Both copies are acknowledged before the second one is confirmed, and the
buffer is passed up while the lower layers hold it. -/
theorem not_sound_acknowledgedTwice : ¬ AlongRun step Sound (start 0)
      (sentTwice ++ [.ackFrame ackOfOne] ++ [.ackFrame ackOfOne]) := by
  intro halong
  have hlast : (TransitionSystem.run step (start 0)
      (sentTwice ++ [.ackFrame ackOfOne])).map (fun run =>
        (run.lower, run.g.entOfAck ackOfOne, (run.g.hash 0).buf, (run.g.hash 0).state)) =
      some ({5}, some 0, 5, .sentMacNotConfirmedApsAcked) := by decide
  obtain ⟨run, hrun, heq⟩ := map_eq_some_iff.mp hlast
  simp only [Prod.mk.injEq] at heq
  obtain ⟨hlower, hent, hbuf, hstate⟩ := heq
  have hexec : (ackFrame ackOfOne).exec run.g =
      some (doneWithThisAck run.g 0 false .ok) := by
    rw [exec, apsAckFrameHandle, hent]
    refine congrArg some (if_neg ?_)
    rw [hstate]
    exact noConfusion
  have hanswer := (halong.last hrun).answers _ _ _ _ _ trivial hexec
    (mem_singleton_self _) rfl
  refine hanswer.1 ?_
  change (run.g.hash 0).buf ∈ run.lower
  rw [hlower, hbuf]
  exact Finset.mem_singleton_self 5

end ApsRun

end Zboss
