import Zboss.BroadcastLogs
import Zboss.RunningMinimum

/-!
# The schedule of broadcasts

Packets are forwarded and broadcasts sent again, in any order and at any time.
The packet for which the upper layer waits is given to the MAC layer last, and
when no entry is ready an alarm is set.
-/

namespace Zboss

open Function Option List TransitionSystem

/-- `ZB_NWK_MAX_BROADCAST_JITTER_INTERVAL`, in beacon intervals. -/
def nwkMaxBroadcastJitterInterval : UInt16 := 4

namespace NwkMain

/-- The loop of `nwk_broadcast_transmition` which looks for the next time. -/
def nextExecution (nwk : NwkMain) : UInt16 :=
  (List.range nwkBrrTableSize).foldl (fun next i =>
      let ent := nwk.brrt.ents i
      if (nwk.brrt.used i = true ∧ ent.retries < nwkMaxBroadcastRetries) ∧
          ent.nextRetransmit < next then
        ent.nextRetransmit
      else next)
    (nwk.timer + nwkMaxBroadcastJitterInterval)

def alarmTimeout (nwk : NwkMain) : UInt16 := nwk.nextExecution - nwk.timer

def macRequests (outputs : List NwkOutput) : List ℕ :=
  outputs.filterMap fun output =>
    match output with
    | .schedule .mcpsDataRequest buf => some buf
    | _ => none

end NwkMain

def NwkMain.TimesAhead (nwk : NwkMain) : Prop :=
  nwk.timer.toNat + nwkMaxBroadcastJitterInterval.toNat < 2 ^ 16 ∧
    ∀ i < nwkBrrTableSize, nwk.brrt.used i = true →
      nwk.timer ≤ (nwk.brrt.ents i).nextRetransmit

def NwkMain.AlarmEarliest (nwk : NwkMain) : Prop :=
  ∀ param result, nwk.nwkBroadcastTransmition param = some result →
    nwk.pickBroadcast.2 = none →
    (∃ i < nwkBrrTableSize, nwk.brrt.used i = true) → result.2 =
          (if param ≠ 0 then [.freeBuf param] else []) ++
            [.cancelAlarm .nwkBroadcastTransmition, .setAlarm .nwkBroadcastTransmition] ∧
        (nwk.TimesAhead → IsLeast (insert nwkMaxBroadcastJitterInterval.toNat
              {t | ∃ i < nwkBrrTableSize, nwk.brrt.used i = true ∧
                ((nwk.brrt.ents i).nextRetransmit - nwk.timer).toNat = t})
            result.1.alarmTimeout.toNat)

/-! ## Runs -/

/-- `logs` belong to the entries in use, `ended` to those which have been
put. -/
structure ScheduleRun where
  nwk : NwkMain
  logs : ℕ → EntryLog
  ended : List EntryLog

/-- `environment` is any other code, while time passes and copies are
overheard: it sets the bits of `passive_ack`. -/
inductive ScheduleEvent where
  | forward (param : ℕ)
  | transmit (param : ℕ)
  | environment (changed : NwkMain) (acks : ℕ → Finset ℕ)

namespace ScheduleRun

def newLog (next : NwkMain) (i : ℕ) : EntryLog :=
  let ent := next.brrt.ents i
  ⟨ent.buf, (next.packets ent.buf).srcAddr, ent.dstAddr, []⟩

def enter (run : ScheduleRun) (next : NwkMain) : ScheduleRun where
  nwk := next
  logs i :=
    if !run.nwk.brrt.used i && next.brrt.used i then newLog next i
    else run.logs i
  ended := run.ended

def record (run : ScheduleRun) (result : NwkMain × List NwkOutput) :
    ℕ → EntryLog :=
  match run.nwk.pickBroadcast.2 with
  | some (i, child) =>
      let sent := (NwkMain.macRequests result.2).map fun buf =>
        ⟨child, buf, result.1.packets buf⟩
      update run.logs i ((run.logs i).append sent)
  | none => run.logs

def serve (run : ScheduleRun) (result : NwkMain × List NwkOutput) : ScheduleRun where
  nwk := result.1
  logs := run.record result
  ended :=
    run.ended ++ ((List.range nwkBrrTableSize).filter fun i =>
        run.nwk.brrt.used i && !result.1.brrt.used i).map (run.record result)

def withAcks (array : NwkArray nwkBrrTableSize NwkBroadcastRetransmit)
    (acks : ℕ → Finset ℕ) : NwkArray nwkBrrTableSize NwkBroadcastRetransmit :=
  { array with ents := fun i => { array.ents i with passiveAck := acks i } }

def step (run : ScheduleRun) : ScheduleEvent → Option ScheduleRun
  | .forward param => (run.nwk.zbNwkForward param).map fun result => run.enter result.1
  | .transmit param => (run.nwk.nwkBroadcastTransmition param).map run.serve
  | .environment changed acks =>
      some
        { run with
          nwk := { changed with brrt := withAcks run.nwk.brrt acks } }

def start (nwk : NwkMain) : ScheduleRun where
  nwk := { nwk with brrt := .zeroed ⟨0, 0, none, 0, 0, 0, 0, ∅⟩ }
  logs _ := ⟨0, 0, 0, []⟩
  ended := []

def Unstored (nwk : NwkMain) (param : ℕ) : Prop :=
  ∀ i < nwkBrrTableSize, nwk.brrt.used i = true → (nwk.brrt.ents i).buf ≠ param

instance (nwk : NwkMain) (param : ℕ) : Decidable (Unstored nwk param) :=
  inferInstanceAs (Decidable (∀ i < nwkBrrTableSize, _ → _))

def Keeps (run : ScheduleRun) : ScheduleEvent → Prop
  | .forward param =>
      Unstored run.nwk param ∧ ∀ result, run.nwk.zbNwkForward param = some result →
          childTable result.1.mesh.zg = childTable run.nwk.mesh.zg
  | .transmit param => param ≠ 0 → Unstored run.nwk param
  | .environment changed _ =>
      childTable changed.mesh.zg = childTable run.nwk.mesh.zg ∧
        ∀ i < nwkBrrTableSize, run.nwk.brrt.used i = true →
          (changed.packets (run.nwk.brrt.ents i).buf).srcAddr =
            (run.nwk.packets (run.nwk.brrt.ents i).buf).srcAddr

structure Scheduled (run : ScheduleRun) : Prop where
  underway : ∀ i < nwkBrrTableSize, run.nwk.brrt.used i = true →
    (run.logs i).Underway (childTable run.nwk.mesh.zg)
  ended : ∀ log ∈ run.ended, log.Finished (childTable run.nwk.mesh.zg)
  alarm : run.nwk.AlarmEarliest

end ScheduleRun

namespace ScheduleRun

structure SlotFollowed
    (table : ChildTable) (nwk : NwkMain) (log : EntryLog) (i : ℕ) : Prop where
  progress : Progress table (nwk.brrt.ents i) log
  source : log.srcAddr = (nwk.packets (nwk.brrt.ents i).buf).srcAddr

structure Followed (table : ChildTable) (run : ScheduleRun) : Prop where
  children : childTable run.nwk.mesh.zg = table
  exact : run.nwk.brrt.Exact
  slots : ∀ i < nwkBrrTableSize, run.nwk.brrt.used i = true →
    SlotFollowed table run.nwk (run.logs i) i
  apart : ∀ i < nwkBrrTableSize, ∀ j < nwkBrrTableSize,
    run.nwk.brrt.used i = true → run.nwk.brrt.used j = true →
      (run.nwk.brrt.ents i).buf = (run.nwk.brrt.ents j).buf → i = j
  ended : ∀ log ∈ run.ended, log.Finished table

variable {table : ChildTable} {run : ScheduleRun} {i n : ℕ}
  {nwk next : NwkMain} {log : EntryLog}

theorem followed_start (nwk : NwkMain) :
    Followed (childTable nwk.mesh.zg) (start nwk) where
  children := rfl
  exact := NwkArray.exact_zeroed _
  slots := by
    intro i _ hused
    exact absurd hused Bool.false_ne_true
  apart := by
    intro i _ j _ hused
    exact absurd hused Bool.false_ne_true
  ended := by
    intro log hlog
    exact absurd hlog not_mem_nil

theorem SlotFollowed.congr (hslot : SlotFollowed table nwk log i)
    (hent : next.brrt.ents i = nwk.brrt.ents i)
    (hpacket : (next.packets (nwk.brrt.ents i).buf).srcAddr =
      (nwk.packets (nwk.brrt.ents i).buf).srcAddr) :
    SlotFollowed table next log i := by
  constructor
  · rw [hent]
    exact hslot.progress
  · rw [hent, hpacket]
    exact hslot.source

/-! ### New entries -/

theorem progress_new {ent : NwkBroadcastRetransmit}
    (hbuf : log.buf = ent.buf) (hdst : log.dstAddr = ent.dstAddr)
    (hsent : log.sent = []) (hretries : ent.retries = 0)
    (hnext : table.Next ent.dstAddr 0 ent.neighborTableIterator) :
    Progress table ent log := by
  have hcopies : ∀ child, log.copies child = 0 := by
    intro child
    rw [EntryLog.copies, hsent]
    rfl
  have hfew : ent.retries ≠ nwkMaxBroadcastRetries := by
    rw [hretries]
    decide
  refine ⟨?_, ?_, fun hmax => absurd hmax hfew⟩
  · exact
      { buf := hbuf
        dstAddr := hdst
        retries := (hcopies none).trans hretries.symm
        few := by
          rw [hretries]
          exact Nat.zero_le _
        child := fun _ hk => (hnext.eligible hk).2
        reached := by
          intro n hn hbefore
          have helig : table.eligible ent.dstAddr n := hdst ▸ hn.1
          exact absurd ((hnext.before_iff helig).mp hbefore) (Nat.not_lt_zero n)
        spared := fun n _ => hcopies (some n)
        addressed := by
          rw [hsent]
          simp
        later := fun hmax => absurd hmax hfew }
  · rw [hsent]
    simp

theorem enter_log_of_used (after : NwkMain) (hused : run.nwk.brrt.used i = true) :
    (run.enter after).logs i = run.logs i := by
  rw [enter]
  dsimp only
  rw [hused]
  rfl

theorem enter_log_of_new {after : NwkMain} (hunused : run.nwk.brrt.used i = false)
    (hused : after.brrt.used i = true) :
    (run.enter after).logs i = newLog after i := by
  rw [enter]
  dsimp only
  rw [hunused, hused]
  rfl

variable {result : NwkMain × List NwkOutput} {indices : List ℕ}

theorem Followed.forward {param : ℕ}
    (hfollowed : Followed table run) (hunstored : Unstored run.nwk param)
    (hchildren : childTable result.1.mesh.zg = childTable run.nwk.mesh.zg)
    (hforward : run.nwk.zbNwkForward param = some result) :
    Followed table (run.enter result.1) := by
  have hkept : ∀ j < nwkBrrTableSize, run.nwk.brrt.used j = true →
      result.1.brrt.ents j = run.nwk.brrt.ents j →
        SlotFollowed table result.1 ((run.enter result.1).logs j) j := by
    intro j hj hused hent
    rw [enter_log_of_used _ hused]
    have hpacket := NwkMain.zbNwkForward_packets hforward (hunstored j hj hused)
    exact (hfollowed.slots j hj hused).congr hent (congrArg NwkPacket.srcAddr hpacket)
  have htable := hchildren.trans hfollowed.children
  cases NwkMain.zbNwkForward_entries hforward with
  | same hbrrt =>
    refine ⟨htable, hbrrt ▸ hfollowed.exact, ?_, ?_, hfollowed.ended⟩
    · intro i hi hused
      have husedi : run.nwk.brrt.used i = true := hbrrt ▸ hused
      exact hkept i hi husedi (by rw [hbrrt])
    · change ∀ i < _, ∀ j < _, result.1.brrt.used i = true → result.1.brrt.used j = true →
          (result.1.brrt.ents i).buf = (result.1.brrt.ents j).buf → i = j
      rw [hbrrt]
      exact hfollowed.apart
  | added j ent hfree hbrrt hbuf hretries _ hiter =>
    obtain ⟨hj, hunused⟩ := NwkArray.freeEnt_eq_some hfree
    have hnew : result.1.brrt.ents j = ent := by
      rw [hbrrt]
      exact update_self _ _ _
    have husednew : result.1.brrt.used j = true := by
      rw [hbrrt]
      exact update_self _ _ _
    have hold : ∀ i, i ≠ j → result.1.brrt.ents i = run.nwk.brrt.ents i ∧
        result.1.brrt.used i = run.nwk.brrt.used i := by
      intro i hi
      rw [hbrrt]
      exact ⟨update_of_ne hi _ _, update_of_ne hi _ _⟩
    have hexact : result.1.brrt.Exact := hbrrt ▸ hfollowed.exact.takeEnt (by decide) hfree
    refine ⟨htable, hexact, ?_, ?_, hfollowed.ended⟩
    · intro i hi hused
      by_cases hij : i = j
      · subst hij
        rw [enter_log_of_new hunused husednew]
        refine ⟨progress_new rfl rfl rfl ?_ ?_, rfl⟩
        · exact (congrArg _ hnew).trans hretries
        · have hnext := next_nextZeChildrenI result.1.mesh.zg ent.dstAddr 0
          rw [htable, ← hiter, ← hnew] at hnext
          exact hnext
      · obtain ⟨hent, hsame⟩ := hold i hij
        exact hkept i hi (hsame.symm.trans hused) hent
    · have hfresh : ∀ i < nwkBrrTableSize, i ≠ j → result.1.brrt.used i = true →
            (result.1.brrt.ents i).buf ≠ (result.1.brrt.ents j).buf := by
        intro i hi hij hused
        obtain ⟨hent, hsame⟩ := hold i hij
        rw [hent, hnew, hbuf]
        exact hunstored i hi (hsame.symm.trans hused)
      intro i hi k hk husedi husedk heq
      by_cases hij : i = j
      · by_cases hkj : k = j
        · exact hij.trans hkj.symm
        · subst hij
          exact absurd heq.symm (hfresh k hk hkj husedk)
      · by_cases hkj : k = j
        · subst hkj
          exact absurd heq (hfresh i hi hij husedi)
        · obtain ⟨henti, hsamei⟩ := hold i hij
          obtain ⟨hentk, hsamek⟩ := hold k hkj
          apply hfollowed.apart i hi k hk (hsamei.symm.trans husedi)
            (hsamek.symm.trans husedk)
          rw [← henti, ← hentk]
          exact heq

/-! ### Transmissions -/

theorem macRequests_schedule (nwk : NwkMain) (sent : Bool) :
    NwkMain.macRequests (nwk.scheduleTransmition sent) = [] := by
  unfold NwkMain.scheduleTransmition
  split
  · split <;> rfl
  · rfl

theorem macRequests_copied (nwk : NwkMain) (param : ℕ) : NwkMain.macRequests
        (.schedule .mcpsDataRequest param :: nwk.scheduleTransmition true) =
      [param] :=
  congrArg (List.cons param) (macRequests_schedule nwk true)

theorem macRequests_last (nwk : NwkMain) (param buf : ℕ) : NwkMain.macRequests
        ([.freeBuf param, .schedule .mcpsDataRequest buf] ++
          nwk.scheduleTransmition true) = [buf] :=
  congrArg (List.cons buf) (macRequests_schedule nwk true)

theorem SlotFollowed.passes (hslot : SlotFollowed table nwk log i)
    (hchildren : childTable nwk.mesh.zg = table)
    (hpasses : NwkMain.PassesSources nwk next indices) :
    SlotFollowed table next log i := by
  have hpackets : next.packets = nwk.packets := by
    obtain ⟨⟨ents, rfl⟩, -⟩ := hpasses
    rfl
  rcases hpasses.moved i with hsame | ⟨-, -, n, ⟨hiter, hrow⟩, hpassed⟩
  · exact hslot.congr hsame (by rw [hpackets])
  · constructor
    · rw [hpassed]
      subst hchildren
      exact hslot.progress.passed hiter (hrow.trans hslot.source.symm)
        (next_nextZeChildrenI _ _ _)
    · rw [hpassed, hpackets]
      exact hslot.source

theorem passes_buf (hpasses : NwkMain.PassesSources nwk next indices)
    (i : ℕ) : (next.brrt.ents i).buf = (nwk.brrt.ents i).buf := by
  rcases hpasses.moved i with hsame | ⟨-, -, n, -, hpassed⟩
  · rw [hsame]
  · rw [hpassed]
    rfl

theorem passes_retries (hpasses : NwkMain.PassesSources nwk next indices)
    (i : ℕ) : (next.brrt.ents i).retries = (nwk.brrt.ents i).retries := by
  rcases hpasses.moved i with hsame | ⟨-, -, n, -, hpassed⟩
  · rw [hsame]
  · rw [hpassed]
    rfl

theorem counted_buf {ent counted : NwkBroadcastRetransmit} {child : Option ℕ}
    (hcount : nwk.countTransmission ent child = some counted) :
    counted.buf = ent.buf := by
  obtain ⟨-, rfl⟩ | ⟨n, -, -, rfl⟩ := NwkMain.countTransmission_eq_some hcount
  · rfl
  · rfl

theorem SlotFollowed.retries_lt (hslot : SlotFollowed table nwk log i)
    (hchildren : childTable nwk.mesh.zg = table)
    (hall : NwkMain.AllPassed nwk next) (hi : i < nwkBrrTableSize)
    (hused : nwk.brrt.used i = true) :
    (nwk.brrt.ents i).retries < nwkMaxBroadcastRetries := by
  apply lt_of_le_of_ne hslot.progress.served.few
  intro hmax
  obtain ⟨n, hiter⟩ := ne_none_iff_exists'.mp (hslot.progress.unspent hmax)
  have hrow := (hall i hi hused n hiter).1.2
  rw [← hslot.source] at hrow
  subst hchildren
  exact hslot.progress.served.later hmax n hiter n le_rfl
    ⟨hslot.progress.served.child n hiter, hrow⟩

theorem SlotFollowed.later
    (hdistinct : table.Distinct) (hslot : SlotFollowed table nwk log i)
    (hchildren : childTable nwk.mesh.zg = table)
    (hpasses : NwkMain.PassesSources nwk next (List.range nwkBrrTableSize))
    (hall : NwkMain.AllPassed nwk next) (hi : i < nwkBrrTableSize)
    (hused : nwk.brrt.used i = true) :
    ∀ n, (next.brrt.ents i).neighborTableIterator = some n →
      ∀ k, n ≤ k → ¬ (table.eligible (next.brrt.ents i).dstAddr k ∧
        table.address k = log.srcAddr) := by
  intro n hn k hk
  cases hiter : (nwk.brrt.ents i).neighborTableIterator with
  | none =>
    rcases hpasses.moved i with hsame | ⟨-, -, m, hsource, -⟩
    · rw [hsame, hiter] at hn
      contradiction
    · rw [hsource.1] at hiter
      contradiction
  | some m =>
    obtain ⟨hsource, hpassed⟩ := hall i hi hused m hiter
    have hchild := hslot.progress.served.child m hiter
    rw [hpassed] at hn ⊢
    rintro ⟨helig, haddress⟩
    have hrow : table.address m = log.srcAddr := by
      subst hchildren
      exact hsource.2.trans hslot.source.symm
    obtain rfl := hdistinct _ m k hchild helig (hrow.trans haddress.symm)
    have hle := (NwkMain.nextZeChildrenI_eq_some.mp hn).1
    omega

theorem Followed.counted {child : Option ℕ} {ent : NwkBroadcastRetransmit}
    {transmission : Transmission}
    (hdistinct : table.Distinct) (hfollowed : Followed table run)
    (hpick : run.nwk.pickBroadcast = (next, some (i, child)))
    (hcount : next.countTransmission (next.brrt.ents i) child = some ent)
    (hchild : transmission.child = child)
    (haddressed : ∀ n, child = some n → transmission.packet.macDst = table.address n ∧
        transmission.packet.indirect = true) :
    Served table ent ((run.logs i).append [transmission]) := by
  have hcase := run.nwk.pickBroadcast_case
  rw [hpick] at hcase
  have hchildren := hfollowed.children
  cases hcase with
  | first _ hi hused hretries =>
    have hserved := (hfollowed.slots i hi hused).progress.served
    obtain rfl := some.inj hcount
    apply hserved.broadcast hchild
    · rw [hretries]
      decide
    · rw [hretries]
      intro hmax
      contradiction
  | child _ _ n hi hused _ hpasses hent hiter hother =>
    have hslot := hfollowed.slots i hi hused
    have hrow : table.address n ≠ (run.logs i).srcAddr := by
      intro heq
      rw [hslot.source] at heq
      subst hchildren
      exact hother ⟨hiter, heq⟩
    obtain ⟨hnone, -⟩ | ⟨m, hm, -, rfl⟩ := NwkMain.countTransmission_eq_some hcount
    · contradiction
    · obtain rfl := some.inj hm
      have hnext := next_nextZeChildrenI next.mesh.zg (next.brrt.ents i).dstAddr (n + 1)
      rw [hpasses.mesh_eq, hchildren] at hnext
      rw [NwkMain.passedOver, hpasses.mesh_eq]
      rw [hent] at hnext ⊢
      exact hslot.progress.served.unicast hiter hrow hnext hchild (haddressed n rfl) _
  | due _ _ hi hused hretries hpasses hall _ =>
    have hslot := hfollowed.slots i hi hused
    have hfew := hslot.retries_lt hchildren hall hi hused
    have hserved := (hslot.passes hchildren hpasses).progress.served
    have hlater := hslot.later hdistinct hchildren hpasses hall hi hused
    rw [← passes_retries hpasses] at hfew
    obtain rfl := some.inj hcount
    exact hserved.broadcast hchild hfew (fun _ => hlater) _

/-! ### Which logs change -/

theorem record_of_idle (hpick : run.nwk.pickBroadcast = (next, none)) :
    run.record result = run.logs := by
  rw [record, hpick]

theorem record_of_waits {child : Option ℕ}
    (hpick : run.nwk.pickBroadcast = (next, some (i, child)))
    (hnone : NwkMain.macRequests result.2 = []) :
    run.record result = run.logs := by
  rw [record, hpick]
  dsimp only
  rw [hnone]
  simp [EntryLog.append]

theorem record_of_request {child : Option ℕ} {buf : ℕ}
    (hpick : run.nwk.pickBroadcast = (next, some (i, child)))
    (hbuf : NwkMain.macRequests result.2 = [buf]) :
    run.record result = update run.logs i
      ((run.logs i).append [⟨child, buf, result.1.packets buf⟩]) := by
  rw [record, hpick]
  dsimp only
  rw [hbuf]
  rfl

theorem mem_serve_ended (hlog : log ∈ (run.serve result).ended) :
    log ∈ run.ended ∨ ∃ i < nwkBrrTableSize, run.nwk.brrt.used i = true ∧
      result.1.brrt.used i = false ∧ log = run.record result i := by
  rcases mem_append.mp hlog with hold | hnew
  · exact .inl hold
  · obtain ⟨i, hi, rfl⟩ := mem_map.mp hnew
    obtain ⟨hrange, hput⟩ := mem_filter.mp hi
    simp only [Bool.and_eq_true, Bool.not_eq_true'] at hput
    exact .inr ⟨i, mem_range.mp hrange, hput.1, hput.2, rfl⟩

theorem serve_ended_of_used (hused : result.1.brrt.used = run.nwk.brrt.used)
    (hended : ∀ log ∈ run.ended, log.Finished table) :
    ∀ log ∈ (run.serve result).ended, log.Finished table := by
  intro log hlog
  rcases mem_serve_ended hlog with hold | ⟨i, -, husedi, hputi, -⟩
  · exact hended log hold
  · rw [hused, husedi] at hputi
    contradiction

theorem Followed.passed (hfollowed : Followed table run)
    (hpasses : NwkMain.PassesSources run.nwk next (List.range nwkBrrTableSize)) :
    childTable next.mesh.zg = table ∧ next.brrt.Exact := by
  refine ⟨?_, ?_⟩
  · rw [hpasses.mesh_eq]
    exact hfollowed.children
  · have hexact := hfollowed.exact
    obtain ⟨⟨ents, rfl⟩, -⟩ := hpasses
    exact hexact

theorem Followed.passes (hfollowed : Followed table run)
    (hpasses : NwkMain.PassesSources run.nwk result.1 (List.range nwkBrrTableSize))
    (hrecord : run.record result = run.logs) :
    Followed table (run.serve result) where
  children := by
    rw [serve]
    exact (hfollowed.passed hpasses).1
  exact := by
    rw [serve]
    exact (hfollowed.passed hpasses).2
  slots := by
    intro i hi hused
    rw [serve] at hused ⊢
    dsimp only at hused ⊢
    rw [hpasses.used_eq] at hused
    rw [hrecord]
    exact (hfollowed.slots i hi hused).passes hfollowed.children hpasses
  apart := by
    intro i hi j hj husedi husedj
    rw [serve] at husedi husedj ⊢
    dsimp only at husedi husedj ⊢
    rw [hpasses.used_eq] at husedi husedj
    rw [passes_buf hpasses, passes_buf hpasses]
    exact hfollowed.apart i hi j hj husedi husedj
  ended := serve_ended_of_used hpasses.used_eq hfollowed.ended

section Transmitted

variable {child : Option ℕ} {ent : NwkBroadcastRetransmit} {after : NwkMain} {param : ℕ}

theorem Followed.unserved (hfollowed : Followed table run)
    (hpasses : NwkMain.PassesSources run.nwk next (List.range nwkBrrTableSize))
    (hpackets : ∀ buf, buf ≠ n → after.packets buf = next.packets buf)
    {j : ℕ} (hj : j < nwkBrrTableSize) (hused : run.nwk.brrt.used j = true)
    (hbuf : (run.nwk.brrt.ents j).buf ≠ n)
    (hent : after.brrt.ents j = next.brrt.ents j) :
    SlotFollowed table after (run.logs j) j := by
  have hslot := (hfollowed.slots j hj hused).passes hfollowed.children hpasses
  apply hslot.congr hent
  rw [← passes_buf hpasses] at hbuf
  rw [hpackets _ hbuf]

section

variable (hdistinct : table.Distinct) (hfollowed : Followed table run)

include hdistinct hfollowed

theorem Followed.requested {buf : ℕ}
    (hpick : run.nwk.pickBroadcast = (next, some (i, child)))
    (hcount : next.countTransmission (next.brrt.ents i) child = some ent)
    (hsends : NwkMain.Sends next after buf child) :
    Served table ent ((run.logs i).append [⟨child, buf, after.packets buf⟩]) := by
  have hpasses := (NwkMain.picked_of_pickBroadcast hpick).passes
  refine hfollowed.counted hdistinct hpick hcount rfl ?_
  rw [← (hfollowed.passed hpasses).1]
  exact hsends.child

theorem Followed.copied (hunstored : Unstored run.nwk param)
    (hpick : run.nwk.pickBroadcast = (next, some (i, child)))
    (hcount : next.countTransmission (next.brrt.ents i) child = some ent)
    (hnotLast : ¬ next.LastTransmission ent (NwkMain.scanIndex (next.brrt.ents i) i child))
    (hbrrt : after.brrt = next.brrt.setEnt i ent)
    (hsends : NwkMain.Sends next after param child) :
    Followed table (run.serve (after, .schedule .mcpsDataRequest param ::
            after.scheduleTransmition true)) := by
  have hpicked := NwkMain.picked_of_pickBroadcast hpick
  have hpasses := hpicked.passes
  obtain ⟨hi, husedi, -⟩ := hpicked.found i child rfl
  obtain ⟨htable, hexact⟩ := hfollowed.passed hpasses
  have hused : after.brrt.used = run.nwk.brrt.used := by
    rw [hbrrt]
    exact hpasses.used_eq
  have hself : after.brrt.ents i = ent := by
    rw [hbrrt]
    exact update_self _ _ _
  have hothers : ∀ j, j ≠ i → after.brrt.ents j = next.brrt.ents j := by
    intro j hj
    rw [hbrrt]
    exact update_of_ne hj _ _
  have hbufs : ∀ j, (after.brrt.ents j).buf = (run.nwk.brrt.ents j).buf := by
    intro j
    rw [← passes_buf hpasses]
    by_cases hj : j = i
    · rw [hj, hself, counted_buf hcount]
    · rw [hothers j hj]
  have hrecord : run.record (after,
        .schedule .mcpsDataRequest param :: after.scheduleTransmition true) =
      update run.logs i ((run.logs i).append [⟨child, param, after.packets param⟩]) :=
    record_of_request hpick (macRequests_copied after param)
  refine ⟨?_, ?_, ?_, ?_, serve_ended_of_used hused hfollowed.ended⟩
  · rw [serve]
    dsimp only
    rw [hsends.mesh]
    exact htable
  · rw [serve]
    dsimp only
    rw [hbrrt]
    exact hexact
  · intro j hj husedj
    rw [serve] at husedj ⊢
    dsimp only at husedj ⊢
    rw [hused] at husedj
    rw [hrecord]
    by_cases hji : j = i
    · subst hji
      rw [update_self]
      have hslot := (hfollowed.slots j hj husedj).passes hfollowed.children hpasses
      have hbuf := hunstored j hj husedj
      have hserved := hfollowed.requested hdistinct hpick hcount hsends
      refine ⟨⟨?_, ?_, ?_⟩, ?_⟩
      · rw [hself]
        exact hserved
      · intro transmission hmem
        rcases mem_append.mp hmem with hold | hnew
        · exact hslot.progress.stored transmission hold
        · rw [mem_singleton.mp hnew]
          intro heq
          apply hbuf
          rw [← passes_buf hpasses, ← hslot.progress.served.buf]
          exact heq.symm
      · rw [hself]
        intro hmax hnone
        exact hnotLast ⟨hnone, .inl hmax.ge⟩
      · rw [hbufs, hsends.packets _ hbuf, ← passes_buf hpasses]
        exact hslot.source
    · rw [update_of_ne hji]
      exact hfollowed.unserved hpasses hsends.packets hj husedj
        (hunstored j hj husedj) (hothers j hji)
  · intro j hj k hk husedj husedk
    rw [serve] at husedj husedk ⊢
    dsimp only at husedj husedk ⊢
    rw [hused] at husedj husedk
    rw [hbufs, hbufs]
    exact hfollowed.apart j hj k hk husedj husedk

theorem Followed.last (hpick : run.nwk.pickBroadcast = (next, some (i, child)))
    (hcount : next.countTransmission (next.brrt.ents i) child = some ent)
    (hlast : next.LastTransmission ent (NwkMain.scanIndex (next.brrt.ents i) i child))
    (hbrrt : after.brrt = (next.brrt.setEnt i ent).putEnt i)
    (hsends : NwkMain.Sends next after ent.buf child) :
    Followed table (run.serve (after,
        [.freeBuf param, .schedule .mcpsDataRequest ent.buf] ++
          after.scheduleTransmition true)) := by
  have hpicked := NwkMain.picked_of_pickBroadcast hpick
  have hpasses := hpicked.passes
  obtain ⟨hi, husedi, -⟩ := hpicked.found i child rfl
  obtain ⟨htable, hexact⟩ := hfollowed.passed hpasses
  have hbufi : ent.buf = (run.nwk.brrt.ents i).buf :=
    (counted_buf hcount).trans (passes_buf hpasses i)
  have hkept : ∀ j, after.brrt.used j = true → j ≠ i ∧ run.nwk.brrt.used j = true ∧
        after.brrt.ents j = next.brrt.ents j := by
    intro j hused
    rw [hbrrt] at hused ⊢
    have hji : j ≠ i := by
      rintro rfl
      exact absurd hused (by simp [NwkArray.putEnt])
    rw [← hpasses.used_eq]
    exact ⟨hji, (update_of_ne hji _ _).symm.trans hused, update_of_ne hji _ _⟩
  have hrecord : run.record (after, [.freeBuf param, .schedule .mcpsDataRequest ent.buf] ++
          after.scheduleTransmition true) =
      update run.logs i ((run.logs i).append [⟨child, ent.buf, after.packets ent.buf⟩]) :=
    record_of_request hpick (macRequests_last after param ent.buf)
  refine ⟨?_, ?_, ?_, ?_, ?_⟩
  · rw [serve]
    dsimp only
    rw [hsends.mesh]
    exact htable
  · have hused' : next.brrt.used i = true := hpasses.used_eq ▸ husedi
    rw [serve]
    dsimp only
    rw [hbrrt]
    exact ((NwkArray.evolves_setEnt next.brrt i ent).exact hexact).putEnt hi hused'
  · intro j hj husedj
    obtain ⟨hji, hused, hent⟩ := hkept j husedj
    rw [serve]
    dsimp only
    rw [hrecord, update_of_ne hji]
    refine hfollowed.unserved hpasses hsends.packets hj hused ?_ hent
    rw [hbufi]
    exact fun heq => hji (hfollowed.apart j hj i hi hused husedi heq)
  · intro j hj k hk husedj husedk heq
    obtain ⟨-, husedj, hentj⟩ := hkept j husedj
    obtain ⟨-, husedk, hentk⟩ := hkept k husedk
    apply hfollowed.apart j hj k hk husedj husedk
    rw [← passes_buf hpasses, ← passes_buf hpasses, ← hentj, ← hentk]
    exact heq
  · intro log hlog
    rcases mem_serve_ended hlog with hold | ⟨j, hj, husedj, hputj, rfl⟩
    · exact hfollowed.ended log hold
    · have hji : j = i := by
        by_contra hji
        rw [hbrrt] at hputj
        have hsame : next.brrt.used j = false := (update_of_ne hji _ _).symm.trans hputj
        rw [hpasses.used_eq, husedj] at hsame
        contradiction
      subst hji
      have hslot := hfollowed.slots j hj husedj
      have hserved := hfollowed.requested hdistinct hpick hcount hsends
      rw [hrecord, update_self]
      exact hserved.finished hlast.1
        (hbufi.trans hslot.progress.served.buf.symm) hslot.progress.stored

theorem Followed.transmit {result : NwkMain × List NwkOutput}
    (hgranted : param ≠ 0 → Unstored run.nwk param)
    (hcase : NwkMain.TransmitCase run.nwk param result) :
    Followed table (run.serve result) := by
  cases hcase with
  | idle next hpick =>
    have hpicked := NwkMain.picked_of_pickBroadcast hpick
    exact hfollowed.passes hpicked.passes (record_of_idle hpick)
  | waits next i child hpick _ =>
    have hpicked := NwkMain.picked_of_pickBroadcast hpick
    exact hfollowed.passes hpicked.passes (record_of_waits hpick rfl)
  | copied next after i child ent hpick hparam hcount hnotLast hbrrt hsends =>
    exact hfollowed.copied hdistinct (hgranted hparam) hpick hcount hnotLast hbrrt hsends
  | last next after i child ent hpick _ hcount hlast hbrrt hsends =>
    exact hfollowed.last hdistinct hpick hcount hlast hbrrt hsends

end

end Transmitted

/-! ### The alarm -/

theorem isLeast_nextExecution (nwk : NwkMain) : IsLeast
      (insert (nwk.timer + nwkMaxBroadcastJitterInterval).toNat
        {t | ∃ i ∈ List.range nwkBrrTableSize, (nwk.brrt.used i = true ∧
              (nwk.brrt.ents i).retries < nwkMaxBroadcastRetries) ∧
            (nwk.brrt.ents i).nextRetransmit.toNat = t})
      nwk.nextExecution.toNat := by
  have hscan : nwk.nextExecution = RunningMinimum.scan (fun i => nwk.brrt.used i = true ∧
          (nwk.brrt.ents i).retries < nwkMaxBroadcastRetries)
        (fun i => (nwk.brrt.ents i).nextRetransmit) UInt16.toNat
        (nwk.timer + nwkMaxBroadcastJitterInterval)
        (List.range nwkBrrTableSize) := rfl
  rw [hscan]
  exact RunningMinimum.isLeast_scan _ _ _ _ _

theorem isLeast_alarmTimeout (hahead : nwk.TimesAhead)
    (hfew : ∀ i < nwkBrrTableSize, nwk.brrt.used i = true →
      (nwk.brrt.ents i).retries < nwkMaxBroadcastRetries) :
    IsLeast (insert nwkMaxBroadcastJitterInterval.toNat
        {t | ∃ i < nwkBrrTableSize, nwk.brrt.used i = true ∧
          ((nwk.brrt.ents i).nextRetransmit - nwk.timer).toNat = t})
      nwk.alarmTimeout.toNat := by
  obtain ⟨hjitter, htimes⟩ := hahead
  obtain ⟨hmem, hleast⟩ := isLeast_nextExecution nwk
  have hend : (nwk.timer + nwkMaxBroadcastJitterInterval).toNat =
      nwk.timer.toNat + nwkMaxBroadcastJitterInterval.toNat := by
    rw [UInt16.toNat_add, Nat.mod_eq_of_lt hjitter]
  have hdelay : ∀ i < nwkBrrTableSize, nwk.brrt.used i = true →
      ((nwk.brrt.ents i).nextRetransmit - nwk.timer).toNat =
          (nwk.brrt.ents i).nextRetransmit.toNat - nwk.timer.toNat ∧
        nwk.timer.toNat ≤ (nwk.brrt.ents i).nextRetransmit.toNat :=
    fun i hi hused => ⟨UInt16.toNat_sub_of_le _ _ (htimes i hi hused),
      UInt16.le_iff_toNat_le.mp (htimes i hi hused)⟩
  rw [hend] at hmem hleast
  have hstart : nwk.timer.toNat ≤ nwk.nextExecution.toNat := by
    rcases hmem with heq | ⟨i, hi, ⟨hused, -⟩, heq⟩
    · omega
    · rw [← heq]
      exact (hdelay i (mem_range.mp hi) hused).2
  have htimeout : nwk.alarmTimeout.toNat = nwk.nextExecution.toNat - nwk.timer.toNat :=
    UInt16.toNat_sub_of_le _ _ (UInt16.le_iff_toNat_le.mpr hstart)
  rw [htimeout]
  constructor
  · rcases hmem with heq | ⟨i, hi, ⟨hused, -⟩, heq⟩
    · left
      omega
    · refine .inr ⟨i, mem_range.mp hi, hused, ?_⟩
      rw [(hdelay i (mem_range.mp hi) hused).1, heq]
  · rintro t (rfl | ⟨i, hi, hused, rfl⟩)
    · have hle := hleast (Set.mem_insert _ _)
      omega
    · have hle := hleast (.inr ⟨i, mem_range.mpr hi, ⟨hused, hfew i hi hused⟩, rfl⟩)
      rw [(hdelay i hi hused).1]
      omega

theorem nextExecution_congr (hpasses : NwkMain.PassesSources nwk next indices) :
    next.alarmTimeout = nwk.alarmTimeout := by
  have hretries := passes_retries hpasses
  have htimes := hpasses.nextRetransmit_eq
  have hused := hpasses.used_eq
  have htimer : next.timer = nwk.timer := by
    obtain ⟨⟨ents, rfl⟩, -⟩ := hpasses
    rfl
  simp only [NwkMain.alarmTimeout, NwkMain.nextExecution, hretries, htimes, hused, htimer]

theorem Followed.alarm (hfollowed : Followed table run) : run.nwk.AlarmEarliest := by
  intro param result htransmit hidle huses
  have hpickCase := run.nwk.pickBroadcast_case
  cases NwkMain.nwkBroadcastTransmition_cases htransmit with
  | waits _ _ _ hpick _ =>
    rw [hpick] at hidle
    contradiction
  | copied _ _ _ _ _ hpick _ _ _ _ _ =>
    rw [hpick] at hidle
    contradiction
  | last _ _ _ _ _ hpick _ _ _ _ _ =>
    rw [hpick] at hidle
    contradiction
  | idle next hpick =>
    rw [hpick] at hpickCase
    cases hpickCase with
    | idle _ _ hpasses hall _ =>
      have hcnt : next.brrt.cnt ≠ 0 := by
        have hexact := hfollowed.exact
        obtain ⟨⟨ents, rfl⟩, -⟩ := hpasses
        intro hzero
        obtain ⟨i, hi, hused⟩ := huses
        have hempty := hexact.cnt_eq_zero.mp hzero
        have hmem : i ∈ run.nwk.brrt.live := SlotTable.mem_inUse.mpr ⟨hi, hused⟩
        rw [hempty] at hmem
        exact absurd hmem (Finset.notMem_empty i)
      refine ⟨?_, ?_⟩
      · dsimp only
        rw [NwkMain.scheduleTransmition, if_pos hcnt]
        rfl
      · intro hahead
        dsimp only
        rw [nextExecution_congr hpasses]
        apply isLeast_alarmTimeout hahead
        intro i hi hused
        exact (hfollowed.slots i hi hused).retries_lt hfollowed.children hall hi hused

/-! ### Runs -/

theorem Followed.scheduled (hfollowed : Followed table run) : Scheduled run where
  underway := by
    intro i hi hused
    rw [hfollowed.children]
    exact (hfollowed.slots i hi hused).progress.underway
  ended := by
    rw [hfollowed.children]
    exact hfollowed.ended
  alarm := hfollowed.alarm

theorem Followed.environment {changed : NwkMain} {acks : ℕ → Finset ℕ}
    (hfollowed : Followed table run)
    (hkeeps : Keeps run (.environment changed acks)) :
    Followed table
      { run with
        nwk := { changed with brrt := withAcks run.nwk.brrt acks } } := by
  obtain ⟨hchildren, hpackets⟩ := hkeeps
  refine ⟨hchildren.trans hfollowed.children, hfollowed.exact, ?_,
    hfollowed.apart, hfollowed.ended⟩
  intro i hi hused
  obtain ⟨⟨hserved, hstored, hunspent⟩, hsource⟩ := hfollowed.slots i hi hused
  refine ⟨⟨?_, hstored, hunspent⟩, hsource.trans (hpackets i hi hused).symm⟩
  exact { hserved with }

theorem followed_step {event : ScheduleEvent} {after : ScheduleRun}
    (hdistinct : table.Distinct) (hfollowed : Followed table run)
    (hkeeps : Keeps run event) (hstep : run.step event = some after) :
    Followed table after := by
  cases event with
  | forward param =>
    obtain ⟨hunstored, hchildren⟩ := hkeeps
    obtain ⟨result, hforward, rfl⟩ := map_eq_some_iff.mp hstep
    exact hfollowed.forward hunstored (hchildren result hforward) hforward
  | transmit param =>
    obtain ⟨result, htransmit, rfl⟩ := map_eq_some_iff.mp hstep
    exact hfollowed.transmit hdistinct hkeeps
      (NwkMain.nwkBroadcastTransmition_cases htransmit)
  | environment changed acks =>
    obtain rfl := some.inj hstep
    exact hfollowed.environment hkeeps

/-- If no two children have one address, the schedule is kept in all runs. -/
theorem everyState_scheduled (nwk : NwkMain) (events : List ScheduleEvent)
    (hdistinct : (childTable nwk.mesh.zg).Distinct)
    (hkeeps : AlongRun step Keeps (start nwk) events) :
    EveryState step Scheduled (start nwk) events :=
  everyState_of_invariant (fun _ _ _ hfollowed hcondition hstep =>
      followed_step hdistinct hfollowed hcondition hstep)
    (fun _ hfollowed => hfollowed.scheduled) (followed_start nwk) hkeeps

/-- The broadcast, the copy for the child 3, and the alarm afterwards. -/
theorem everyState_scheduled_parent : EveryState step Scheduled (start parentNwk)
      [.forward 1, .transmit 2, .transmit 3] := by
  apply everyState_scheduled
  · have hone : ∀ addr n, (childTable parentNwk.mesh.zg).eligible addr n → n = 1 := by
      intro addr n hchild
      have hlt : n < 2 := hchild.lt
      have htype := hchild.deviceType
      by_contra hne
      obtain rfl : n = 0 := by omega
      contradiction
    intro addr n k hn hk _
    rw [hone addr n hn, hone addr k hk]
  · refine ⟨⟨by decide, ?_⟩, ?_⟩
    · intro result hforward
      obtain rfl := some.inj hforward
      rfl
    · intro sent hsent
      obtain rfl := some.inj hsent
      refine ⟨fun _ => by decide +kernel, ?_⟩
      intro waiting hwaiting
      obtain rfl := some.inj hwaiting
      exact ⟨fun _ => by decide +kernel, fun _ _ => trivial⟩

end ScheduleRun

def twinsNwk : NwkMain :=
  { parentNwk with
    mesh :=
      { parentNwk.mesh with
        zg :=
          { parentNwk.mesh.zg with
            addr :=
              { AddrGlobals.zeroed with
                addrMap := fun ref => { AddrGlobals.zeroed.addrMap ref with addr := 3 } }
            neighbor :=
              { parentNwk.mesh.zg.neighbor with
                baseNeighbor := fun _ => parentNwk.mesh.zg.neighbor.baseNeighbor 1 } } }
    packets := fun i => { parentNwk.packets i with srcAddr := 3 } }

def toRoutersNwk (timer : UInt16) : NwkMain :=
  { parentNwk with
    timer := timer
    packets := fun i =>
      { parentNwk.packets i with dstAddr := nwkBroadcastRouterCoordinator } }

namespace ScheduleRun

def twinsEvents : List ScheduleEvent :=
  [.forward 1, .transmit 2,
    .environment { twinsNwk with timer := 16 } (fun _ => ∅), .transmit 3,
    .environment { twinsNwk with timer := 32 } (fun _ => ∅), .transmit 4]

theorem keeps_twinsEvents :
    AlongRun step Keeps (start twinsNwk) twinsEvents := by
  refine ⟨⟨by decide, ?_⟩, ?_⟩
  · intro result hforward
    obtain rfl := some.inj hforward
    rfl
  intro first hfirst
  obtain rfl := some.inj hfirst
  refine ⟨fun _ => by decide +kernel, ?_⟩
  intro second hsecond
  obtain rfl := some.inj hsecond
  refine ⟨⟨rfl, by decide +kernel⟩, ?_⟩
  intro third hthird
  obtain rfl := some.inj hthird
  refine ⟨fun _ => by decide +kernel, ?_⟩
  intro fourth hfourth
  obtain rfl := some.inj hfourth
  refine ⟨⟨rfl, by decide +kernel⟩, ?_⟩
  intro fifth hfifth
  obtain rfl := some.inj hfifth
  exact ⟨fun _ => by decide +kernel, fun _ _ => trivial⟩

/-- Each of two children with the address of the originator is passed over in
front of a broadcast.  The alarm comes at the end of the jitter, long before the
broadcast is to be sent again, or later if that end is behind the wrap. -/
theorem not_scheduled_always : (AlongRun step Keeps (start twinsNwk) twinsEvents ∧
        (run step (start twinsNwk) twinsEvents).any (fun last =>
          last.ended.any fun log => nwkMaxBroadcastRetries < log.copies none) = true) ∧
      (run step (start (toRoutersNwk 0)) [.forward 1, .transmit 2]).any
          (fun last => last.nwk.pickBroadcast.2.isNone &&
            ((last.nwk.brrt.ents 0).nextRetransmit - last.nwk.timer == 16 &&
              last.nwk.alarmTimeout == 4)) = true ∧
      (run step (start (toRoutersNwk 65519)) [.forward 1, .transmit 2,
            .environment (toRoutersNwk 65533) fun _ => ∅]).any
          (fun last => last.nwk.pickBroadcast.2.isNone &&
            ((last.nwk.brrt.ents 0).nextRetransmit - last.nwk.timer == 2 &&
              last.nwk.alarmTimeout == 4)) = true := by
  refine ⟨⟨keeps_twinsEvents, ?_⟩, ?_, ?_⟩
  · decide +kernel
  · decide +kernel
  · decide +kernel

end ScheduleRun

end Zboss
