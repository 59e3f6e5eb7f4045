import Zboss.ApsRetransmission
import Zboss.TransitionSystem

/-!
# Slots, alarms and results of the retransmission table

Each slot in use has one alarm and no other slot has any.  This holds through
all events exactly as long as acknowledged requests find a free slot before the
last one and the scheduler has room for every alarm.
-/

namespace Zboss

open Function Option ApsGlobals Multiset RetransState TransitionSystem

def ApsGlobals.wantedAlarms (g : ApsGlobals) (j : ℕ) : ℕ :=
  if j < nApsRetransEntries ∧ (g.hash j).state ≠ .free then 1 else 0

structure SlotsAgree (g : ApsGlobals) : Prop where
  alarms : ∀ j, g.ackAlarms.count j = g.wantedAlarms j
  bufs : ∀ j < nApsRetransEntries, (g.hash j).state ≠ .free →
    (g.hash j).buf < iobufPoolSize

def StoredIn (g g' : ApsGlobals) (param : ℕ) (req : ApsdeDataReq) (i : ℕ) : Prop :=
  (g.hash i).state = .free ∧ g'.hash i = savedEnt g (g.hash i) param req

/-- `save_ack_data` reports where it has stored the request, or that the table
is full, which is then unchanged. -/
def SaveAckDataRight (g : ApsGlobals) (param : ℕ) (req : ApsdeDataReq) : Prop :=
  let (g', status, ref) := saveAckData g param req
  (∀ i < nApsRetransEntries, (status = .ok ∧ ref.getD 0 = i ↔ StoredIn g g' param req i)) ∧
    (status ≠ .ok → status = .tableFull ∧ ∀ i < nApsRetransEntries, g'.hash i = g.hash i)

def ApsdeDataReq.Acknowledged (req : ApsdeDataReq) : Prop :=
  (∃ mode addr dstEndpoint, req.dst = .address mode addr dstEndpoint) ∧ req.optAckTx = true

instance ApsdeDataReq.decidableAcknowledged (req : ApsdeDataReq) :
    Decidable req.Acknowledged :=
  match hdst : req.dst with
  | .address mode addr dstEndpoint =>
      decidable_of_iff (req.optAckTx = true)
        ⟨fun h => ⟨⟨mode, addr, dstEndpoint, hdst⟩, h⟩, fun h => h.2⟩
  | .noBoundDevice | .unknownPeer | .group =>
      isFalse (by
        rintro ⟨⟨mode, addr, dstEndpoint, hdst'⟩, -⟩
        rw [hdst] at hdst'
        contradiction)

namespace ApsEvent

/-- `save_ack_data`, when it is called, is right; the timer finds a slot in
use; and slots and alarms agree after the event. -/
structure SlotsRight (g : ApsGlobals) (event : ApsEvent) : Prop where
  saved : ∀ param req accepted fc,
    event = .dataRequest param req accepted → param < iobufPoolSize → req.Acknowledged →
        SaveAckDataRight (apsDataHdrFillDatareq g fc param) param req
  timer : ∀ i accepted g', event = .ackTimer i accepted → event.apply g = some g' →
      i < nApsRetransEntries ∧ (g.hash i).buf < iobufPoolSize
  agree : ∀ g', event.apply g = some g' → SlotsAgree g'

def HasRoom (g : ApsGlobals) : ApsEvent → Prop
  | dataRequest param req alarmAccepted =>
      param < iobufPoolSize → req.Acknowledged →
        (∃ i ∈ g.freeEnt, i ≠ nApsRetransEntries - 1) ∧ alarmAccepted = true
  | sendCommand param destAddr command _ alarmAccepted =>
      param < iobufPoolSize → apsCommandNeedAck destAddr command = true →
        g.freeEnt ≠ none → alarmAccepted = true
  | ackTimer i alarmAccepted =>
      ¬ ((g.hash i).apsRetries - 1 = 0 ∧ (g.hash i).state = .sentMacConfirmed) →
        i ∈ g.ackAlarms → alarmAccepted = true
  | nldeConfirm _ | ackFrame _ => True

end ApsEvent

section Agreement

variable {g g' : ApsGlobals} {i : ℕ}

theorem slotsAgree_init (apsCounter : UInt8) : SlotsAgree (zbApsInit apsCounter) where
  alarms j := by
    rw [wantedAlarms, if_neg (fun h => h.2 rfl)]
    exact count_zero j
  bufs j _ hstate := absurd rfl hstate

section

variable (hagree : SlotsAgree g)

include hagree

theorem SlotsAgree.congr (hhash : g'.hash = g.hash)
    (halarms : g'.ackAlarms = g.ackAlarms) : SlotsAgree g' := by
  constructor
  · intro j
    rw [halarms, hagree.alarms j, wantedAlarms, wantedAlarms, hhash]
  · intro j hj
    rw [hhash]
    exact hagree.bufs j hj

theorem SlotsAgree.update_iff {ent : ApsRetransEnt} (hi : i < nApsRetransEntries)
    (hhash : g'.hash = update g.hash i ent)
    (hothers : ∀ j, j ≠ i → g'.ackAlarms.count j = g.ackAlarms.count j)
    (hbuf : ent.state ≠ .free → ent.buf < iobufPoolSize) :
    SlotsAgree g' ↔ g'.ackAlarms.count i = if ent.state = .free then 0 else 1 := by
  have hself : g'.hash i = ent := by rw [hhash, update_self]
  have hwanted : g'.wantedAlarms i = if ent.state = .free then 0 else 1 := by
    rw [wantedAlarms, hself]
    by_cases hstate : ent.state = .free
    · rw [if_pos hstate, if_neg (fun h => h.2 hstate)]
    · rw [if_neg hstate, if_pos ⟨hi, hstate⟩]
  constructor
  · intro hagree'
    rw [hagree'.alarms i, hwanted]
  · intro hcount
    constructor
    · intro j
      by_cases hj : j = i
      · subst hj
        rw [hcount, hwanted]
      · rw [hothers j hj, hagree.alarms j, wantedAlarms,
          wantedAlarms, hhash, update_of_ne hj]
    · intro j hj
      by_cases hne : j = i
      · subst hne
        rw [hself]
        exact hbuf
      · rw [hhash, update_of_ne hne]
        exact hagree.bufs j hj

theorem SlotsAgree.count_of_free (hfree : (g.hash i).state = .free) :
    g.ackAlarms.count i = 0 := by
  rw [hagree.alarms i, wantedAlarms, if_neg (fun h => h.2 hfree)]

theorem SlotsAgree.count_of_used (hi : i < nApsRetransEntries)
    (hused : (g.hash i).state ≠ .free) : g.ackAlarms.count i = 1 := by
  rw [hagree.alarms i, wantedAlarms, if_pos ⟨hi, hused⟩]

theorem SlotsAgree.used_of_mem (hmem : i ∈ g.ackAlarms) :
    i < nApsRetransEntries ∧ (g.hash i).state ≠ .free := by
  have hpos := count_pos.mpr hmem
  rw [hagree.alarms i, wantedAlarms] at hpos
  by_contra hnot
  rw [if_neg hnot] at hpos
  exact absurd hpos (Nat.lt_irrefl 0)

end

@[simp] theorem startAlarm_hash (accepted : Bool) :
    (g.startAlarm accepted i).hash = g.hash := by
  cases accepted <;> rfl

@[simp] theorem startAlarm_fc (accepted : Bool) : (g.startAlarm accepted i).fc = g.fc := by
  cases accepted <;> rfl

theorem count_startAlarm (accepted : Bool) : (g.startAlarm accepted i).ackAlarms.count i =
      g.ackAlarms.count i + if accepted then 1 else 0 := by
  cases accepted
  · rfl
  · exact count_cons_self i g.ackAlarms

theorem count_startAlarm_of_ne (accepted : Bool) {j : ℕ} (hj : j ≠ i) :
    (g.startAlarm accepted i).ackAlarms.count j = g.ackAlarms.count j := by
  cases accepted
  · rfl
  · exact count_cons_of_ne hj g.ackAlarms

theorem SlotsAgree.take_iff {ent : ApsRetransEnt} (hagree : SlotsAgree g) (accepted : Bool)
    (hfree : g.freeEnt = some i) (hused : ent.state ≠ .free)
    (hbuf : ent.buf < iobufPoolSize)
    (hhash : g'.hash = update g.hash i ent)
    (halarms : g'.ackAlarms = (g.startAlarm accepted i).ackAlarms) :
    SlotsAgree g' ↔ accepted = true := by
  obtain ⟨hi, hstate⟩ := freeEnt_eq_some hfree
  rw [hagree.update_iff hi hhash
    (fun j hj => by rw [halarms, count_startAlarm_of_ne accepted hj])
    (fun _ => hbuf), halarms, count_startAlarm, hagree.count_of_free hstate,
    if_neg hused]
  cases accepted <;> simp

theorem SlotsAgree.doneWithThisAck
    (hagree : SlotsAgree g) (hi : i < nApsRetransEntries) (ackFormat : Bool)
    (status : ApsStatus) :
    SlotsAgree (doneWithThisAck g i ackFormat status).1 := by
  have hhash : (Zboss.doneWithThisAck g i ackFormat status).1.hash = update g.hash i
        { g.hash i with
          state := .free, addr := noRetransAddr, buf := noRetransBuf } := rfl
  refine (hagree.update_iff hi hhash (fun j hj => count_erase_of_ne hj g.ackAlarms)
    (fun h => absurd rfl h)).mpr ?_
  rw [if_pos rfl]
  change (g.ackAlarms.erase i).count i = 0
  rw [count_erase_self, hagree.alarms i, wantedAlarms]
  split <;> rfl

theorem SlotsAgree.setEnt {ent : ApsRetransEnt} (hagree : SlotsAgree g)
    (hi : i < nApsRetransEntries) (hused : (g.hash i).state ≠ .free)
    (hbuf : ent.buf = (g.hash i).buf) (hent : ent.state ≠ .free) :
    SlotsAgree (g.setEnt i ent) := by
  have hhash : (g.setEnt i ent).hash = update g.hash i ent := rfl
  refine (hagree.update_iff hi hhash (fun j _ => rfl) ?_).mpr ?_
  · intro _
    rw [hbuf]
    exact hagree.bufs i hi hused
  · rw [if_neg hent]
    exact hagree.count_of_used hi hused

end Agreement

theorem saveAckData_of_some
    {g : ApsGlobals} {i : ℕ} (hfree : g.freeEnt = some i) (param : ℕ)
    (req : ApsdeDataReq) :
    saveAckData g param req = (g.setEnt i (savedEnt g (g.hash i) param req),
        if i = nApsRetransEntries - 1 then .tableFull else .ok, some i) := by
  rw [saveAckData, hfree]
  rfl

theorem saveAckData_of_none {g : ApsGlobals} (hfull : g.freeEnt = none) (param : ℕ)
    (req : ApsdeDataReq) :
    saveAckData g param req = (g, .ok, none) := by
  rw [saveAckData, hfull]
  rfl

theorem saveAckDataRight_iff {g : ApsGlobals} {param : ℕ} {req : ApsdeDataReq} :
    SaveAckDataRight g param req ↔ ∃ i ∈ g.freeEnt, i ≠ nApsRetransEntries - 1 := by
  have hnew : ∀ i, (savedEnt g (g.hash i) param req).state ≠ .free := by
    intro i
    exact noConfusion
  cases hfree : g.freeEnt with
  | none =>
    have hzero : 0 < nApsRetransEntries := by decide
    rw [SaveAckDataRight, saveAckData_of_none hfree]
    constructor
    · rintro ⟨hstored, -⟩
      obtain ⟨hstate, -⟩ := (hstored 0 hzero).mp ⟨rfl, rfl⟩
      exact absurd hstate (freeEnt_eq_none hfree hzero)
    · rintro ⟨i, hi, -⟩
      contradiction
  | some i =>
    obtain ⟨hi, hstate⟩ := freeEnt_eq_some hfree
    rw [SaveAckDataRight, saveAckData_of_some hfree]
    dsimp only
    have hset : (g.setEnt i (savedEnt g (g.hash i) param req)).hash i =
        savedEnt g (g.hash i) param req := update_self ..
    by_cases hlast : i = nApsRetransEntries - 1
    · rw [if_pos hlast]
      constructor
      · rintro ⟨-, hfull⟩
        have hsame := (hfull ApsStatus.noConfusion).2 i hi
        rw [hset] at hsame
        exact absurd (hsame ▸ hstate) (hnew i)
      · rintro ⟨j, hj, hne⟩
        obtain rfl := some.inj hj
        exact absurd hlast hne
    · rw [if_neg hlast]
      constructor
      · intro _
        exact ⟨i, rfl, hlast⟩
      · intro _
        refine ⟨?_, fun h => absurd rfl h⟩
        intro j hj
        constructor
        · rintro ⟨-, hij⟩
          obtain rfl : i = j := hij
          exact ⟨hstate, hset⟩
        · rintro ⟨hfreej, hj'⟩
          refine ⟨rfl, ?_⟩
          by_contra hne
          have hji : j ≠ i := fun h => hne h.symm
          have hkeep : (g.setEnt i (savedEnt g (g.hash i) param req)).hash j =
              g.hash j := update_of_ne hji ..
          rw [hkeep] at hj'
          exact absurd (hj' ▸ hfreej) (hnew j)

section Events

variable {g g' : ApsGlobals} {param : ℕ} {req : ApsdeDataReq}

theorem ApsGlobals.freeEnt_congr (hhash : g'.hash = g.hash) : g'.freeEnt = g.freeEnt := by
  rw [freeEnt, freeEnt, hhash]

theorem zbApsdeDataRequest_unacknowledged (hnot : ¬ req.Acknowledged) (accepted : Bool) :
    (zbApsdeDataRequest g param req accepted).1.hash = g.hash ∧
      (zbApsdeDataRequest g param req accepted).1.ackAlarms = g.ackAlarms := by
  unfold zbApsdeDataRequest
  split
  · exact ⟨rfl, rfl⟩
  · exact ⟨rfl, rfl⟩
  · exact ⟨rfl, rfl⟩
  · rename_i mode addr dstEndpoint hdst
    rw [if_neg fun hopt => hnot ⟨⟨mode, addr, dstEndpoint, hdst⟩, hopt⟩]
    exact ⟨rfl, rfl⟩

theorem zbApsdeDataRequest_stored
    {i : ℕ} (hack : req.Acknowledged) (hfree : g.freeEnt = some i)
    (hlast : i ≠ nApsRetransEntries - 1) (param : ℕ) (accepted : Bool) :
    ∃ filled : ApsGlobals, filled.hash = g.hash ∧ filled.ackAlarms = g.ackAlarms ∧
        (zbApsdeDataRequest g param req accepted).1 = (filled.setEnt i
            (savedEnt filled (filled.hash i) param req)).startAlarm accepted i := by
  obtain ⟨⟨mode, addr, dstEndpoint, hdst⟩, hopt⟩ := id hack
  refine ⟨apsDataHdrFillDatareq g ⟨.data, mode, false, false, true⟩ param, rfl, rfl, ?_⟩
  rw [zbApsdeDataRequest, hdst]
  dsimp only
  rw [if_pos hopt, apsdeAckRequest, saveAckData_of_some ?_, if_neg hlast]
  · rfl
  · exact hfree

theorem agree_acknowledged_iff
    {i : ℕ} (hagree : SlotsAgree g) (hparam : param < iobufPoolSize)
    (hack : req.Acknowledged) (hfree : g.freeEnt = some i)
    (hlast : i ≠ nApsRetransEntries - 1) (accepted : Bool) :
    (∀ g', (ApsEvent.dataRequest param req accepted).apply g = some g' →
        SlotsAgree g') ↔ accepted = true := by
  obtain ⟨filled, hhash, halarms, hrequest⟩ :=
    zbApsdeDataRequest_stored hack hfree hlast param accepted
  have hfilled := hagree.congr hhash halarms
  have happly : (ApsEvent.dataRequest param req accepted).apply g =
      some ((filled.setEnt i (savedEnt filled (filled.hash i) param req)).startAlarm
          accepted i) := by
    rw [ApsEvent.apply, ApsEvent.exec, if_pos hparam, map_some, hrequest]
  have htake : SlotsAgree ((filled.setEnt i
      (savedEnt filled (filled.hash i) param req)).startAlarm accepted i) ↔
        accepted = true :=
    hfilled.take_iff accepted ((freeEnt_congr hhash).trans hfree)
      noConfusion hparam (startAlarm_hash accepted)
      (by cases accepted <;> rfl)
  rw [← htake]
  simp only [happly, some.injEq, forall_eq']

theorem saved_acknowledged_iff (fc : ApsFc) :
    SaveAckDataRight (apsDataHdrFillDatareq g fc param) param req ↔
      ∃ i ∈ g.freeEnt, i ≠ nApsRetransEntries - 1 := by
  rw [saveAckDataRight_iff]
  rfl

theorem ApsEvent.slotsRight_of_agree {event : ApsEvent} (hrequest : ∀ param req accepted,
      event = .dataRequest param req accepted → param < iobufPoolSize → ¬ req.Acknowledged)
    (htimer : ∀ i accepted, event = .ackTimer i accepted →
      i ∈ g.ackAlarms → i < nApsRetransEntries ∧ (g.hash i).buf < iobufPoolSize)
    (hagree : ∀ g', event.apply g = some g' → SlotsAgree g') :
    event.SlotsRight g := by
  constructor
  · intro param req accepted _ heq hparam hack
    exact absurd hack (hrequest param req accepted heq hparam)
  · intro i accepted g' heq happly
    apply htimer i accepted heq
    rw [heq, ApsEvent.apply, ApsEvent.exec] at happly
    by_contra hnot
    rw [if_neg hnot] at happly
    contradiction
  · exact hagree

section

variable (hagree : SlotsAgree g)

include hagree

theorem slotsRight_dataRequest_iff (accepted : Bool) :
    (ApsEvent.dataRequest param req accepted).SlotsRight g ↔
      (ApsEvent.dataRequest param req accepted).HasRoom g := by
  by_cases hasks : param < iobufPoolSize ∧ req.Acknowledged
  · obtain ⟨hparam, hack⟩ := hasks
    constructor
    · rintro ⟨hright, -, hall⟩ _ _
      obtain ⟨i, hfree, hlast⟩ := (saved_acknowledged_iff
        ⟨.data, .unicast, false, false, true⟩).mp (hright _ _ _ _ rfl hparam hack)
      exact ⟨⟨i, hfree, hlast⟩,
        (agree_acknowledged_iff hagree hparam hack hfree hlast accepted).mp hall⟩
    · intro hroom
      obtain ⟨⟨i, hfree, hlast⟩, haccepted⟩ := hroom hparam hack
      constructor
      · rintro _ _ _ fc heq _ _
        cases heq
        exact (saved_acknowledged_iff fc).mpr ⟨i, hfree, hlast⟩
      · intro _ _ _ heq
        exact ApsEvent.noConfusion heq
      · exact (agree_acknowledged_iff hagree hparam hack hfree hlast
          accepted).mpr haccepted
  · refine iff_of_true ?_ (fun hparam hack => absurd ⟨hparam, hack⟩ hasks)
    apply ApsEvent.slotsRight_of_agree
    · rintro _ _ _ heq hparam hack
      cases heq
      exact hasks ⟨hparam, hack⟩
    · intro _ _ heq
      exact ApsEvent.noConfusion heq
    · intro g' happly
      rw [ApsEvent.apply, ApsEvent.exec] at happly
      split at happly
      · rename_i hparam
        obtain rfl := some.inj happly
        obtain ⟨hhash, halarms⟩ := zbApsdeDataRequest_unacknowledged
          (fun hack => hasks ⟨hparam, hack⟩) accepted
        exact hagree.congr hhash halarms
      · contradiction

theorem slotsRight_sendCommand_iff {destAddr : ℕ} {command : UInt8}
    {secure : Bool} (accepted : Bool) :
    (ApsEvent.sendCommand param destAddr command secure accepted).SlotsRight g ↔
      (ApsEvent.sendCommand param destAddr command secure accepted).HasRoom g := by
  have hagrees : ∀ g', g'.hash = (zbApsSendCommand g param destAddr command
        secure accepted).1.hash → g'.ackAlarms = (zbApsSendCommand g param destAddr
        command secure accepted).1.ackAlarms → param < iobufPoolSize →
      (SlotsAgree g' ↔ (apsCommandNeedAck destAddr command = true →
        g.freeEnt ≠ none → accepted = true)) := by
    intro g' hhash halarms hparam
    rw [zbApsSendCommand] at hhash halarms
    cases hneed : apsCommandNeedAck destAddr command with
    | false =>
      rw [hneed] at hhash halarms
      exact iff_of_true (hagree.congr hhash halarms) (fun h => Bool.noConfusion h)
    | true =>
      rw [hneed] at hhash halarms
      cases hfree : g.freeEnt with
      | none =>
        rw [hfree] at hhash halarms
        exact iff_of_true (hagree.congr hhash halarms) (fun _ h => absurd rfl h)
      | some i =>
        rw [hfree] at hhash halarms
        rw [hagree.take_iff accepted hfree noConfusion hparam
          (hhash.trans (startAlarm_hash accepted))
          (halarms.trans (by cases accepted <;> rfl))]
        exact ⟨fun h _ _ => h, fun h => h rfl (some_ne_none i)⟩
  by_cases hparam : param < iobufPoolSize
  · have happly : (ApsEvent.sendCommand param destAddr command secure accepted).apply g =
        some (zbApsSendCommand g param destAddr command secure accepted).1 := by
      rw [ApsEvent.apply, ApsEvent.exec, if_pos hparam]
      rfl
    constructor
    · rintro ⟨-, -, hall⟩ _
      exact (hagrees _ rfl rfl hparam).mp (hall _ happly)
    · intro hroom
      apply ApsEvent.slotsRight_of_agree
      · intro _ _ _ heq
        exact ApsEvent.noConfusion heq
      · intro _ _ heq
        exact ApsEvent.noConfusion heq
      · intro g' hg'
        rw [happly, some.injEq] at hg'
        subst hg'
        exact (hagrees _ rfl rfl hparam).mpr (hroom hparam)
  · refine iff_of_true ?_ (fun h => absurd h hparam)
    apply ApsEvent.slotsRight_of_agree
    · intro _ _ _ heq
      exact ApsEvent.noConfusion heq
    · intro _ _ heq
      exact ApsEvent.noConfusion heq
    · intro g' happly
      rw [ApsEvent.apply, ApsEvent.exec, if_neg hparam] at happly
      contradiction

theorem SlotsAgree.nldeConfirm {outputs : List ApsOutput}
    (hconfirm : zbNldeDataConfirm g param = some (g', outputs)) :
    SlotsAgree g' := by
  unfold zbNldeDataConfirm at hconfirm
  dsimp only at hconfirm
  split at hconfirm
  · obtain ⟨rfl, -⟩ := some_pair_inj hconfirm
    exact hagree
  · split at hconfirm
    · obtain ⟨rfl, -⟩ := some_pair_inj hconfirm
      exact hagree
    · split at hconfirm
      · rename_i i hent
        obtain ⟨hi, -⟩ := entOfBuf_eq_some hent
        split at hconfirm
        · have hdone := hagree.doneWithThisAck hi (g.fc param).ackFormat .ok
          rw [some.inj hconfirm] at hdone
          exact hdone
        · rename_i hstate
          obtain ⟨rfl, -⟩ := some_pair_inj hconfirm
          exact hagree.setEnt hi (hstate ▸ noConfusion) rfl noConfusion
        · contradiction
      · obtain ⟨rfl, -⟩ := some_pair_inj hconfirm
        exact hagree

theorem SlotsAgree.ackFrame (hdr : ApsAckHdr) :
    SlotsAgree (apsAckFrameHandle g hdr).1 := by
  unfold apsAckFrameHandle
  split
  · rename_i i hent
    obtain ⟨hi, -⟩ := entOfAck_eq_some hent
    split
    · rename_i hstate
      exact hagree.setEnt hi (hstate ▸ noConfusion) rfl noConfusion
    · exact hagree.doneWithThisAck hi hdr.ackFormat .ok
  · exact hagree

theorem agree_ackTimer_iff {i : ℕ} (hmem : i ∈ g.ackAlarms) (accepted : Bool) :
    SlotsAgree (zbApsAckTimerCb { g with ackAlarms := g.ackAlarms.erase i } i accepted).1 ↔
      (¬ ((g.hash i).apsRetries - 1 = 0 ∧
          (g.hash i).state = .sentMacConfirmed) → accepted = true) := by
  obtain ⟨hi, hused⟩ := hagree.used_of_mem hmem
  have hcount : (g.ackAlarms.erase i).count i = 0 := by
    rw [count_erase_self, hagree.count_of_used hi hused]
  have hothers : ∀ j, j ≠ i →
      (g.ackAlarms.erase i).count j = g.ackAlarms.count j := fun j hj =>
    count_erase_of_ne hj g.ackAlarms
  have hbuf := hagree.bufs i hi hused
  by_cases hout : (g.hash i).apsRetries - 1 = 0 ∧ (g.hash i).state = .sentMacConfirmed
  · refine iff_of_true ?_ (fun h => absurd hout h)
    rw [zbApsAckTimerCb, if_pos hout]
    have hhash : (Zboss.doneWithThisAck
        (({ g with ackAlarms := g.ackAlarms.erase i } : ApsGlobals).setEnt i
          { g.hash i with apsRetries := (g.hash i).apsRetries - 1 }) i
        (g.fc (g.hash i).buf).ackFormat .noAck).1.hash =
        update g.hash i
          { g.hash i with
            apsRetries := (g.hash i).apsRetries - 1
            state := .free
            addr := noRetransAddr
            buf := noRetransBuf } := by
      rw [Zboss.doneWithThisAck]
      simp only [setEnt, update_self, update_idem]
    refine (hagree.update_iff hi hhash ?_ (fun h => absurd rfl h)).mpr ?_
    · intro j hj
      exact (count_erase_of_ne hj _).trans (hothers j hj)
    · rw [if_pos rfl]
      change ((g.ackAlarms.erase i).erase i).count i = 0
      rw [count_erase_self, hcount]
  · have himp : (¬ ((g.hash i).apsRetries - 1 = 0 ∧
        (g.hash i).state = .sentMacConfirmed) → accepted = true) ↔
        accepted = true := ⟨fun h => h hout, fun h _ => h⟩
    have hrestart : ∀ ent : ApsRetransEnt, ent.state ≠ .free →
        ent.buf = (g.hash i).buf → ∀ g' : ApsGlobals, g'.hash = update g.hash i ent →
          g'.ackAlarms = (startAlarm { g with ackAlarms := g.ackAlarms.erase i } accepted
              i).ackAlarms →
          (SlotsAgree g' ↔ accepted = true) := by
      intro ent hstate hsame g' hhash halarms
      rw [hagree.update_iff hi hhash ?_ (fun _ => hsame ▸ hbuf), halarms,
        count_startAlarm, hcount, if_neg hstate]
      · cases accepted <;> simp
      · intro j hj
        rw [halarms, count_startAlarm_of_ne accepted hj]
        exact hothers j hj
    rw [himp, zbApsAckTimerCb, if_neg hout]
    dsimp only
    split
    · apply hrestart
        { g.hash i with
          apsRetries := (g.hash i).apsRetries - 1
          state := .sentMacNotConfirmed } noConfusion rfl
      · simp only [setEnt, startAlarm_hash, update_self, update_idem]
      · cases accepted <;> rfl
    · apply hrestart { g.hash i with apsRetries := (g.hash i).apsRetries - 1 } hused rfl
      · exact startAlarm_hash accepted
      · cases accepted <;> rfl

theorem slotsRight_ackTimer_iff {i : ℕ} (accepted : Bool) :
    (ApsEvent.ackTimer i accepted).SlotsRight g ↔
      (ApsEvent.ackTimer i accepted).HasRoom g := by
  by_cases hmem : i ∈ g.ackAlarms
  · have happly : (ApsEvent.ackTimer i accepted).apply g =
        some (zbApsAckTimerCb { g with ackAlarms := g.ackAlarms.erase i } i
          accepted).1 := by
      rw [ApsEvent.apply, ApsEvent.exec, if_pos hmem]
      rfl
    constructor
    · rintro ⟨-, -, hall⟩ hrestart _
      exact (agree_ackTimer_iff hagree hmem accepted).mp (hall _ happly) hrestart
    · intro hroom
      apply ApsEvent.slotsRight_of_agree
      · intro _ _ _ heq
        exact ApsEvent.noConfusion heq
      · rintro _ _ heq hmem
        cases heq
        obtain ⟨hi, hused⟩ := hagree.used_of_mem hmem
        exact ⟨hi, hagree.bufs i hi hused⟩
      · intro g' hg'
        rw [happly, some.injEq] at hg'
        subst hg'
        exact (agree_ackTimer_iff hagree hmem accepted).mpr
          (fun hrestart => hroom hrestart hmem)
  · refine iff_of_true ?_ (fun _ h => absurd h hmem)
    apply ApsEvent.slotsRight_of_agree
    · intro _ _ _ heq
      exact ApsEvent.noConfusion heq
    · rintro _ _ heq h
      cases heq
      exact absurd h hmem
    · intro g' happly
      rw [ApsEvent.apply, ApsEvent.exec, if_neg hmem] at happly
      contradiction

theorem slotsRight_iff (event : ApsEvent) : event.SlotsRight g ↔ event.HasRoom g := by
  cases event with
  | dataRequest param req accepted => exact slotsRight_dataRequest_iff hagree accepted
  | sendCommand param destAddr command secure accepted =>
    exact slotsRight_sendCommand_iff hagree accepted
  | ackTimer i accepted => exact slotsRight_ackTimer_iff hagree accepted
  | nldeConfirm param =>
    refine iff_of_true (ApsEvent.slotsRight_of_agree ?_ ?_ ?_) trivial
    · intro _ _ _ heq
      exact ApsEvent.noConfusion heq
    · intro _ _ heq
      exact ApsEvent.noConfusion heq
    · intro g' happly
      obtain ⟨⟨_, outputs⟩, hconfirm, rfl⟩ := map_eq_some_iff.mp happly
      exact hagree.nldeConfirm hconfirm
  | ackFrame hdr =>
    refine iff_of_true (ApsEvent.slotsRight_of_agree ?_ ?_ ?_) trivial
    · intro _ _ _ heq
      exact ApsEvent.noConfusion heq
    · intro _ _ heq
      exact ApsEvent.noConfusion heq
    · intro g' happly
      obtain rfl := some.inj happly
      exact hagree.ackFrame hdr

end

end Events

/-- Results, slots and alarms are right through a run exactly if every event of
the run finds room. -/
theorem slotsRight_iff_hasRoom (apsCounter : UInt8) (events : List ApsEvent) :
    AlongRun (fun g event => ApsEvent.apply g event) (fun g event => event.SlotsRight g)
        (zbApsInit apsCounter) events ↔
      AlongRun (fun g event => ApsEvent.apply g event) (fun g event => event.HasRoom g)
        (zbApsInit apsCounter) events := by
  apply alongRun_congr (fun g event hagree => slotsRight_iff hagree event)
  · intro g event next hagree hroom hnext
    exact ((slotsRight_iff hagree event).mpr hroom).agree next hnext
  · exact slotsAgree_init apsCounter

def requestToOne : ApsdeDataReq where
  dst := .address .unicast 1 10
  srcEndpoint := 10
  clusterid := 6
  optAckTx := true

def requestsToOne (n : ℕ) : List ApsEvent :=
  (List.range n).map fun buf => .dataRequest buf requestToOne true

/-- The tenth request is stored, and the table is reported to be full. -/
theorem not_slotsRight_requestsToOne : ¬ AlongRun (fun g event => ApsEvent.apply g event)
      (fun g event => event.SlotsRight g) (zbApsInit 0)
      (requestsToOne 10) := by
  intro halong
  have hnine : (run (fun g event => ApsEvent.apply g event)
      (zbApsInit 0) (requestsToOne 9)).map freeEnt =
        some (some 9) := by decide
  obtain ⟨g, hrun, hfree⟩ := map_eq_some_iff.mp hnine
  have happend : requestsToOne 10 =
      requestsToOne 9 ++ [.dataRequest 9 requestToOne true] := rfl
  rw [happend] at halong
  have hack : requestToOne.Acknowledged := ⟨⟨.unicast, 1, 10, rfl⟩, rfl⟩
  have hsaved := (halong.last hrun).saved 9 requestToOne true
    ⟨.data, .unicast, false, false, true⟩ rfl (by decide) hack
  obtain ⟨i, hi, hlast⟩ := (saved_acknowledged_iff _).mp hsaved
  rw [hfree] at hi
  exact hlast (some.inj hi).symm

end Zboss
