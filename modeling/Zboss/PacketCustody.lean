import Zboss.GrantedBuffers
import Zboss.RouteCommandBuffers
import Zboss.UndeliverablePackets

/-!
# The custody of packets

A packet which has been given to the network layer is in one of its tables, or
one of its functions or the MAC layer is to be called with it, until it is
confirmed.  Each function of the layer keeps it in one of these places, or frees
it or gives it away.
-/

namespace Zboss

open Function List SlotTable

def NwkCallback.onTheWay : NwkCallback → Bool
  | .nwkForward | .mcpsDataRequest | .nwkCallBrConfirm | .nldeDataConfirm => true
  | _ => false

def NwkOutput.task : NwkOutput → Option (NwkCallback × ℕ)
  | .schedule func param => if func.onTheWay then some (func, param) else none
  | .mesh _ (.forwardPending buf _) => some (.nwkForward, buf)
  | _ => none

def NwkOutput.gift : NwkOutput → Option ℕ
  | .schedule func param =>
      if func.onTheWay ∨ func = .nwkBroadcastTransmition then none
      else some param
  | .call _ param | .freeBuf param | .unsecureFailed param => some param
  | .mesh param output => if output.disposes then some param else none
  | .getBufDelayed _ _ | .setAlarm _ | .cancelAlarm _ => none

def tasks (outputs : List NwkOutput) : List (NwkCallback × ℕ) :=
  outputs.filterMap NwkOutput.task

def gifts (outputs : List NwkOutput) : List ℕ :=
  outputs.filterMap NwkOutput.gift

def queuedFor (buf : ℕ) (queue : List (NwkCallback × ℕ)) : ℕ :=
  queue.countP fun task => task.2 == buf

def passed (buf : ℕ) (outputs : List NwkOutput) : ℕ :=
  queuedFor buf (tasks outputs) + (gifts outputs).count buf

namespace NwkMain

def pendingHeld (table : ℕ → NwkPend) (buf : ℕ) : ℕ :=
  (inUse nwkPendingTableSize fun i => (table i).used && (table i).buf == buf).card

def held (nwk : NwkMain) (buf : ℕ) : ℕ :=
  pendingHeld nwk.mesh.pendingTable buf + nwk.brrt.holding (fun ent => ent.buf == buf) +
      nwk.waitAlloc.holding (· == buf)

/-- The buffers which wait for a second one are at the beginning of their
array, so that the entry at its end is in use. -/
structure WaitsInOrder (nwk : NwkMain) : Prop where
  used : ∀ i, nwk.waitAlloc.used i = decide (i < nwk.waitAlloc.cnt.toNat)
  cnt : nwk.waitAlloc.cnt.toNat ≤ nwkWaitAllocTableSize

structure KeepsHeaders (nwk next : NwkMain) (buf : ℕ) : Prop where
  macHdr : (nwk.packets buf).macHdr = true → (next.packets buf).macHdr = true
  nwkHdr : (nwk.packets buf).nwkHdr = true → (next.packets buf).nwkHdr = true

/-- A function which gets the packet `got` times leaves it in the tables or
passes it on as often as it was there before. -/
structure Conserves (nwk : NwkMain) (buf got : ℕ) (given : Prop)
    (result : NwkMain × List NwkOutput) : Prop where
  count : result.1.held buf + passed buf result.2 = nwk.held buf + got
  gift : buf ∈ gifts result.2 → given
  headers : KeepsHeaders nwk result.1 buf
  confirm : (.nldeDataConfirm, buf) ∈ tasks result.2 → (result.1.packets buf).macHdr = true
  waits : nwk.WaitsInOrder → result.1.WaitsInOrder

end NwkMain

section

variable {buf : ℕ} {first second : List NwkOutput}

@[simp] theorem tasks_append : tasks (first ++ second) = tasks first ++ tasks second :=
  filterMap_append

@[simp] theorem gifts_append : gifts (first ++ second) = gifts first ++ gifts second :=
  filterMap_append

@[simp] theorem queuedFor_append {queue rest : List (NwkCallback × ℕ)} :
    queuedFor buf (queue ++ rest) = queuedFor buf queue + queuedFor buf rest :=
  countP_append

theorem passed_append :
    passed buf (first ++ second) = passed buf first + passed buf second := by
  simp only [passed, tasks_append, gifts_append, queuedFor_append, count_append]
  omega

structure Avoids (buf : ℕ) (outputs : List NwkOutput) : Prop where
  tasks : ∀ func, (func, buf) ∉ tasks outputs
  gifts : buf ∉ gifts outputs

theorem Avoids.passed (havoids : Avoids buf first) : passed buf first = 0 := by
  have hqueued : queuedFor buf (Zboss.tasks first) = 0 := by
    rw [queuedFor, countP_eq_zero]
    rintro ⟨func, other⟩ hmem hother
    rw [← beq_iff_eq.mp hother] at havoids
    exact havoids.tasks func hmem
  rw [Zboss.passed, hqueued, count_eq_zero.mpr havoids.gifts]

theorem Avoids.append (hfirst : Avoids buf first) (hsecond : Avoids buf second) :
    Avoids buf (first ++ second) where
  tasks func := by
    rw [tasks_append, mem_append]
    exact not_or_intro (hfirst.tasks func) (hsecond.tasks func)
  gifts := by
    rw [gifts_append, mem_append]
    exact not_or_intro hfirst.gifts hsecond.gifts

theorem avoids_singleton {output : NwkOutput} {param : ℕ} (hbuf : buf ≠ param)
    (htask : ∀ task ∈ output.task, task.2 = param)
    (hgift : ∀ other ∈ output.gift, other = param) : Avoids buf [output] where
  tasks func hmem := by
    obtain ⟨other, hother, htask'⟩ := mem_filterMap.mp hmem
    rw [mem_singleton.mp hother] at htask'
    exact hbuf (htask _ htask')
  gifts hmem := by
    obtain ⟨other, hother, hgift'⟩ := mem_filterMap.mp hmem
    rw [mem_singleton.mp hother] at hgift'
    exact hbuf (hgift _ hgift')

theorem avoids_freeBuf {param : ℕ} (hbuf : buf ≠ param) :
    Avoids buf [.freeBuf param] :=
  avoids_singleton hbuf (by simp [NwkOutput.task]) (by simp [NwkOutput.gift])

theorem avoids_schedule {param : ℕ} (func : NwkCallback) (hbuf : buf ≠ param) :
    Avoids buf [.schedule func param] := by
  refine avoids_singleton hbuf ?_ ?_
  · intro task htask
    rw [NwkOutput.task] at htask
    split at htask
    · rw [← Option.some.inj htask]
    · contradiction
  · intro other hother
    rw [NwkOutput.gift] at hother
    split at hother
    · contradiction
    · exact (Option.some.inj hother).symm

structure Silent (outputs : List NwkOutput) : Prop where
  tasks : tasks outputs = []
  gifts : gifts outputs = []

theorem Silent.avoids (hsilent : Silent first) (buf : ℕ) : Avoids buf first where
  tasks func := by
    rw [hsilent.tasks]
    exact not_mem_nil
  gifts := by
    rw [hsilent.gifts]
    exact not_mem_nil

theorem toNat_beq (a b : ℕ) : (a == b).toNat = if a == b then 1 else 0 := by
  cases a == b <;> rfl

theorem passed_of_task
    {func : NwkCallback} {param : ℕ} (htasks : tasks first = [(func, param)])
    (hgifts : gifts first = []) : passed buf first = (param == buf).toNat := by
  rw [Zboss.passed, htasks, hgifts]
  simp [queuedFor, countP_cons, toNat_beq]

theorem passed_of_gift
    {param : ℕ} (htasks : tasks first = []) (hgifts : gifts first = [param]) :
    passed buf first = (param == buf).toNat := by
  rw [Zboss.passed, htasks, hgifts]
  simp [queuedFor, count_singleton, toNat_beq]

end

namespace NwkMain

variable {nwk mid next : NwkMain} {param macDst buf got : ℕ} {given : Prop}
  {outputs : List NwkOutput} {result : NwkMain × List NwkOutput}

structure SameCustody (nwk next : NwkMain) : Prop where
  pendingTable : next.mesh.pendingTable = nwk.mesh.pendingTable
  brrt : next.brrt = nwk.brrt
  waitAlloc : next.waitAlloc = nwk.waitAlloc

theorem SameCustody.trans (hfirst : SameCustody nwk mid) (hsecond : SameCustody mid next) :
    SameCustody nwk next where
  pendingTable := hsecond.pendingTable.trans hfirst.pendingTable
  brrt := hsecond.brrt.trans hfirst.brrt
  waitAlloc := hsecond.waitAlloc.trans hfirst.waitAlloc

theorem SameCustody.held (hsame : SameCustody nwk next) (buf : ℕ) :
    next.held buf = nwk.held buf := by
  unfold NwkMain.held
  rw [hsame.pendingTable, hsame.brrt, hsame.waitAlloc]

theorem WaitsInOrder.congr
    (hsame : next.waitAlloc = nwk.waitAlloc) (horder : nwk.WaitsInOrder) :
    next.WaitsInOrder := by
  obtain ⟨hused, hcnt⟩ := horder
  constructor
  · rw [hsame]
    exact hused
  · rw [hsame]
    exact hcnt

theorem KeepsHeaders.trans
    (hfirst : KeepsHeaders nwk mid buf) (hsecond : KeepsHeaders mid next buf) :
    KeepsHeaders nwk next buf :=
  ⟨hsecond.macHdr ∘ hfirst.macHdr, hsecond.nwkHdr ∘ hfirst.nwkHdr⟩

theorem keepsHeaders_of_packets (hpackets : next.packets buf = nwk.packets buf) :
    KeepsHeaders nwk next buf := by
  constructor
  · rw [hpackets]
    exact id
  · rw [hpackets]
    exact id

theorem keepsHeaders_setPacket_of_ne {packet : NwkPacket} (hne : buf ≠ param) :
    KeepsHeaders nwk (nwk.setPacket param packet) buf :=
  keepsHeaders_of_packets (update_of_ne hne ..)

theorem keepsHeaders_setPacket
    {packet : NwkPacket} (hmac : (nwk.packets param).macHdr = packet.macHdr)
    (hnwk : (nwk.packets param).nwkHdr = packet.nwkHdr) :
    KeepsHeaders nwk (nwk.setPacket param packet) buf := by
  by_cases hbuf : buf = param
  · have hpacket : (nwk.setPacket param packet).packets buf = packet := by
      rw [hbuf]
      exact update_self ..
    constructor
    · rw [hpacket, hbuf, hmac]
      exact id
    · rw [hpacket, hbuf, hnwk]
      exact id
  · exact keepsHeaders_setPacket_of_ne hbuf

theorem conserves_of_passed
    (hsame : SameCustody nwk result.1) (hheaders : KeepsHeaders nwk result.1 buf)
    (hpassed : passed buf result.2 = got)
    (hgift : buf ∈ gifts result.2 → given)
    (hconfirm : (.nldeDataConfirm, buf) ∉ tasks result.2) :
    Conserves nwk buf got given result where
  count := by rw [hsame.held, hpassed]
  gift := hgift
  headers := hheaders
  confirm hmem := absurd hmem hconfirm
  waits := WaitsInOrder.congr hsame.waitAlloc

theorem Conserves.of_prior (hconserves : Conserves mid buf got given result)
    (hheld : mid.held buf = nwk.held buf) (hheaders : KeepsHeaders nwk mid buf)
    (hwaits : nwk.WaitsInOrder → mid.WaitsInOrder) :
    Conserves nwk buf got given result where
  count := by rw [hconserves.count, hheld]
  gift := hconserves.gift
  headers := hheaders.trans hconserves.headers
  confirm := hconserves.confirm
  waits := hconserves.waits ∘ hwaits

theorem Conserves.of_same (hconserves : Conserves mid buf got given result)
    (hsame : SameCustody nwk mid) (hheaders : KeepsHeaders nwk mid buf) :
    Conserves nwk buf got given result :=
  hconserves.of_prior (hsame.held buf) hheaders (WaitsInOrder.congr hsame.waitAlloc)

theorem Conserves.append {first second : List NwkOutput} {more : ℕ}
    (hfirst : Conserves nwk buf got given (mid, first))
    (hsecond : Conserves mid buf more given (next, second)) :
    Conserves nwk buf (got + more) given (next, first ++ second) where
  count := by
    have hfirst := hfirst.count
    have hsecond := hsecond.count
    dsimp only at hfirst hsecond ⊢
    rw [passed_append]
    omega
  gift hmem := by
    dsimp only at hmem
    rw [gifts_append, mem_append] at hmem
    exact hmem.elim hfirst.gift hsecond.gift
  headers := hfirst.headers.trans hsecond.headers
  confirm hmem := by
    dsimp only at hmem
    rw [tasks_append, mem_append] at hmem
    exact hmem.elim (fun h => hsecond.headers.macHdr (hfirst.confirm h)) hsecond.confirm
  waits := hsecond.waits ∘ hfirst.waits

theorem conserves_of_avoids (hheld : next.held buf = nwk.held buf + got)
    (hheaders : KeepsHeaders nwk next buf)
    (hwaits : nwk.WaitsInOrder → next.WaitsInOrder)
    (havoids : Avoids buf outputs) :
    Conserves nwk buf got given (next, outputs) where
  count := by
    dsimp only
    rw [hheld, havoids.passed]
    rfl
  gift hmem := absurd hmem havoids.gifts
  headers := hheaders
  confirm hmem := absurd hmem (havoids.tasks _)
  waits := hwaits

theorem SameCustody.conserves
    (hsame : SameCustody nwk next) (hheaders : KeepsHeaders nwk next buf)
    (havoids : Avoids buf outputs) :
    Conserves nwk buf 0 given (next, outputs) :=
  conserves_of_avoids (hsame.held buf) hheaders
    (WaitsInOrder.congr hsame.waitAlloc) havoids

theorem pendingHeld_update
    (table : ℕ → NwkPend) (buf : ℕ) {i : ℕ} (hi : i < nwkPendingTableSize)
    (ent : NwkPend) :
    pendingHeld (update table i ent) buf + ((table i).used && (table i).buf == buf).toNat =
      pendingHeld table buf + (ent.used && ent.buf == buf).toNat := by
  have hupdate : (fun j => (update table i ent j).used &&
      (update table i ent j).buf == buf) =
        update (fun j => (table j).used && (table j).buf == buf) i
          (ent.used && ent.buf == buf) := by
    funext j
    by_cases hj : j = i
    · rw [hj, update_self, update_self]
    · rw [update_of_ne hj, update_of_ne hj]
  rw [pendingHeld, hupdate]
  exact card_inUse_update hi _

/-! ## Forwarding -/

theorem silent_startBtrExpiry (nwk : NwkMain) : Silent nwk.startBtrExpiry := by
  rcases nwk.startBtrExpiry_spec with hnone | hsome
  · rw [hnone]
    exact ⟨rfl, rfl⟩
  · rw [hsome]
    exact ⟨rfl, rfl⟩

theorem forwardFailed_spec (nwk : NwkMain) (param macDst : ℕ) :
    ∃ zg output, nwk.forwardFailed param macDst = (nwk.setZg zg, [output]) ∧
      tasks [output] = [] ∧ gifts [output] = [param] := by
  unfold forwardFailed
  split
  · dsimp only
    split
    · exact ⟨_, _, rfl, rfl, rfl⟩
    · exact ⟨_, _, rfl, rfl, rfl⟩
  · exact ⟨_, _, rfl, rfl, rfl⟩

theorem forwardFailed_conserves (hgiven : buf = param → given) :
    Conserves nwk buf (param == buf).toNat given (nwk.forwardFailed param macDst) := by
  obtain ⟨zg, output, heq, htasks, hgifts⟩ := nwk.forwardFailed_spec param macDst
  rw [heq]
  refine conserves_of_passed ⟨rfl, rfl, rfl⟩ ?_ (passed_of_gift htasks hgifts) ?_ ?_
  · exact keepsHeaders_of_packets rfl
  · rw [hgifts, mem_singleton]
    exact hgiven
  · rw [htasks]
    exact not_mem_nil

theorem TakesPending.conserves {i : ℕ} (hfree : nwk.freePending = some i)
    (htakes : TakesPending nwk param i next) (hbrrt : next.brrt = nwk.brrt)
    (hwaitAlloc : next.waitAlloc = nwk.waitAlloc) (hsilent : Silent outputs) :
    Conserves nwk buf (param == buf).toNat given (next, outputs) := by
  obtain ⟨hlt, hunused⟩ := nwkArrayGetEnt_eq_some hfree
  have hchange := pendingHeld_update nwk.mesh.pendingTable buf hlt
    ⟨true, param, (nwk.packets param).handle, (nwk.packets param).dstAddr⟩
  rw [hunused, ← htakes.pendingTable] at hchange
  have hpending : pendingHeld next.mesh.pendingTable buf =
      pendingHeld nwk.mesh.pendingTable buf + (param == buf).toNat := hchange
  have hheld : next.held buf = nwk.held buf + (param == buf).toNat := by
    unfold held
    rw [hbrrt, hwaitAlloc]
    omega
  exact conserves_of_avoids hheld (keepsHeaders_of_packets (congrFun htakes.packets buf))
    (WaitsInOrder.congr hwaitAlloc) (hsilent.avoids buf)

theorem Recorded.sameCustody
    {started : List NwkOutput} (hrecorded : Recorded nwk param next started) :
    SameCustody nwk next ∧ next.packets = nwk.packets ∧ Silent started := by
  cases hrecorded with
  | kept => exact ⟨⟨rfl, rfl, rfl⟩, rfl, rfl, rfl⟩
  | added _ hadd =>
    obtain ⟨hstarted, i, -, rfl⟩ := addBtr_eq_some hadd
    exact ⟨⟨rfl, rfl, rfl⟩, rfl, hstarted ▸ silent_startBtrExpiry _⟩

theorem takeRetransmit_conserves
    {i : ℕ} {ent : NwkBroadcastRetransmit} (hfree : nwk.brrt.freeEnt = some i)
    (hbuf : ent.buf = param) (hsilent : Silent outputs) :
    Conserves nwk buf (param == buf).toNat given
      ({ nwk with brrt := nwk.brrt.takeEnt i ent }, outputs) := by
  have hbrrt : (nwk.brrt.takeEnt i ent).holding (fun ent => ent.buf == buf) =
      nwk.brrt.holding (fun ent => ent.buf == buf) + (param == buf).toNat := by
    rw [NwkArray.holding_takeEnt hfree, hbuf]
  have hheld : ({ nwk with brrt := nwk.brrt.takeEnt i ent } : NwkMain).held buf =
      nwk.held buf + (param == buf).toNat := by
    unfold held
    dsimp only
    omega
  exact conserves_of_avoids hheld (keepsHeaders_of_packets rfl)
    (WaitsInOrder.congr rfl) (hsilent.avoids buf)

theorem RoutesChanged.same (hchanged : RoutesChanged nwk next) :
    next.brrt = nwk.brrt ∧ next.waitAlloc = nwk.waitAlloc := by
  obtain ⟨_, _, _, rfl⟩ := hchanged
  exact ⟨rfl, rfl⟩

theorem Calculates.silent {calculated : NwkMain × CalcDestination × List NwkOutput}
    (hcalculates : Calculates nwk calculated) : Silent calculated.2.2 := by
  rcases hcalculates.outputs with hnone | ⟨-, hsome⟩
  · rw [hnone]
    exact ⟨rfl, rfl⟩
  · rw [hsome]
    exact ⟨rfl, rfl⟩

theorem calculated_sameCustody {ret : CalcDestination} (hsame : SamePending nwk next)
    (hcalc : nwk.nwkCalcDestination param = some (next, ret, outputs)) :
    SameCustody nwk next := by
  obtain ⟨hbrrt, hwaitAlloc⟩ := (nwkCalcDestination_calculates hcalc).changed.same
  exact ⟨hsame.pendingTable, hbrrt, hwaitAlloc⟩

theorem noRoom_of_calculated {ret : CalcDestination}
    (hcalc : nwk.nwkCalcDestination param = some (mid, ret, outputs))
    (hfull : NoRoom mid param) : NoRoom nwk param := by
  obtain ⟨_, _, _, rfl⟩ := (nwkCalcDestination_calculates hcalc).changed
  cases hfull with
  | btt hbroadcast hnew hfull => exact .btt hbroadcast hnew hfull
  | brrt hbroadcast hrouter hfull => exact .brrt hbroadcast hrouter hfull

theorem noRoom_of_recorded
    {started : List NwkOutput} (hrecorded : Recorded nwk param next started)
    (hfull : NoRoom next param) : NoRoom nwk param := by
  cases hrecorded with
  | kept => exact hfull
  | added _ hadd =>
    obtain ⟨-, i, hfree, rfl⟩ := addBtr_eq_some hadd
    cases hfull with
    | btt hbroadcast hnew hfull =>
      obtain ⟨hlt, -⟩ := NwkArray.freeEnt_eq_some hfree
      have hmiss := NwkArray.findEnt_eq_none.mp hnew i hlt (update_self ..)
      simp [NwkArray.takeEnt] at hmiss
    | brrt hbroadcast hrouter hfull => exact .brrt hbroadcast hrouter hfull

theorem Conserves.of_recorded {routed recorded : NwkMain} {indirect : Bool}
    {calculated started : List NwkOutput} (hsame : SamePending nwk routed)
    (hcalc : nwk.nwkCalcDestination param = some (routed, .ok macDst indirect, calculated))
    (hrecorded : Recorded routed param recorded started)
    (hconserves : Conserves (recorded.readyForMac param macDst indirect) buf got
      given (next, outputs)) :
    Conserves nwk buf got given (next, started ++ outputs) := by
  obtain ⟨hkept, hpackets, hsilent⟩ := hrecorded.sameCustody
  have hheaders : KeepsHeaders recorded (recorded.readyForMac param macDst indirect) buf :=
    keepsHeaders_setPacket rfl rfl
  have hready : Conserves recorded buf got given (next, outputs) :=
    hconserves.of_same ⟨rfl, rfl, rfl⟩ hheaders
  have hsilent : Conserves recorded buf 0 given (recorded, started) :=
    SameCustody.conserves ⟨rfl, rfl, rfl⟩ (keepsHeaders_of_packets rfl)
      (hsilent.avoids buf)
  have hstarted := hsilent.append hready
  rw [Nat.zero_add] at hstarted
  have hrouted := hstarted.of_same hkept (keepsHeaders_of_packets (congrFun hpackets buf))
  exact hrouted.of_same (calculated_sameCustody hsame hcalc)
    (keepsHeaders_of_packets (congrFun hsame.packets buf))

theorem zbNwkForward_conserves (hforward : nwk.zbNwkForward param = some result) :
    Conserves nwk buf (param == buf).toNat
      (buf = param ∧ nwk.Undeliverable param) result := by
  cases zbNwkForward_cases hforward with
  | waits hcalc =>
    have hcalculates := nwkCalcDestination_calculates hcalc
    obtain ⟨hbrrt, hwaitAlloc⟩ := hcalculates.changed.same
    cases nwkCalcDestination_destined hcalc with
    | waits hfree htakes _ =>
      exact htakes.conserves hfree hbrrt hwaitAlloc hcalculates.silent
  | noDestination hcalc =>
    cases nwkCalcDestination_destined hcalc with
    | failed hsame hno =>
      refine Conserves.of_same ?_ (calculated_sameCustody hsame hcalc)
        (keepsHeaders_of_packets (congrFun hsame.packets buf))
      exact forwardFailed_conserves fun hbuf => ⟨hbuf, .inl hno⟩
  | noRecord hcalc hfull =>
    cases nwkCalcDestination_destined hcalc with
    | ok hsame _ =>
      refine Conserves.of_same ?_ (calculated_sameCustody hsame hcalc)
        (keepsHeaders_of_packets (congrFun hsame.packets buf))
      exact forwardFailed_conserves fun hbuf =>
        ⟨hbuf, .inr (noRoom_of_calculated hcalc hfull)⟩
  | noRetransmit hcalc hrecorded hfull =>
    cases nwkCalcDestination_destined hcalc with
    | ok hsame _ =>
      refine Conserves.of_recorded hsame hcalc hrecorded ?_
      have hroom := noRoom_of_calculated hcalc (noRoom_of_recorded hrecorded hfull)
      exact forwardFailed_conserves fun hbuf => ⟨hbuf, .inr hroom⟩
  | sent hcalc hrecorded =>
    cases nwkCalcDestination_destined hcalc with
    | ok hsame _ =>
      refine Conserves.of_recorded hsame hcalc hrecorded ?_
      refine conserves_of_passed ⟨rfl, rfl, rfl⟩ (keepsHeaders_of_packets rfl) ?_ ?_ ?_
      · exact passed_of_task rfl rfl
      · exact fun hmem => absurd hmem not_mem_nil
      · simp [tasks, NwkOutput.task, NwkCallback.onTheWay]
  | retransmits hcalc hrecorded hfree =>
    cases nwkCalcDestination_destined hcalc with
    | ok hsame _ =>
      refine Conserves.of_recorded hsame hcalc hrecorded ?_
      exact takeRetransmit_conserves hfree rfl ⟨rfl, rfl⟩

theorem gifts_forwardFailed (nwk : NwkMain) (param macDst : ℕ) :
    param ∈ gifts (nwk.forwardFailed param macDst).2 := by
  obtain ⟨zg, output, heq, -, hgifts⟩ := nwk.forwardFailed_spec param macDst
  rw [heq, hgifts]
  exact mem_singleton_self param

theorem broadcast_calc
    (hbroadcast : nwkIsAddressBroadcast (nwk.packets param).dstAddr = true) :
    ∃ macDst indirect,
      nwk.nwkCalcDestination param = some (nwk, .ok macDst indirect, []) := by
  unfold nwkCalcDestination
  dsimp only
  split
  · split
    · exact ⟨_, _, rfl⟩
    · exact ⟨_, _, rfl⟩
  · exact ⟨_, _, rfl⟩

theorem forwardTo_full (nwk : NwkMain)
    (hbroadcast : nwkIsAddressBroadcast (nwk.packets param).dstAddr = true)
    (hrouter : nwk.deviceType ≠ .endDevice)
    (hfull : nwkBrrTableSize ≤ nwk.brrt.cnt.toNat) (macDst : ℕ)
    (indirect : Bool) :
    ∃ result, nwk.forwardTo param macDst indirect = some result ∧
      param ∈ gifts result.2 := by
  refine ⟨(nwk.readyForMac param macDst indirect).forwardFailed param macDst,
    ?_, gifts_forwardFailed _ param macDst⟩
  unfold forwardTo startRetransmit
  dsimp only
  rw [if_pos ⟨hbroadcast, hrouter⟩]
  exact if_neg (Nat.not_lt_of_ge hfull)

theorem Undeliverable.forward (hundeliverable : nwk.Undeliverable param) :
    ∃ result, nwk.zbNwkForward param = some result ∧ param ∈ gifts result.2 := by
  unfold zbNwkForward
  rcases hundeliverable with hno | hfull
  · obtain ⟨routed, macDst, outputs, hcalc⟩ := hno.calc
    rw [hcalc]
    exact ⟨_, rfl, gifts_forwardFailed routed param macDst⟩
  · obtain ⟨hbroadcast, hcases⟩ := noRoom_iff.mp hfull
    obtain ⟨macDst, indirect, hcalc⟩ := broadcast_calc hbroadcast
    rw [hcalc, Option.bind_eq_bind, Option.bind_some]
    dsimp only
    split
    · rename_i hnew
      cases hadd : nwk.addBtr (nwk.packets param).srcAddr (nwk.packets param).seqNum with
      | none => exact ⟨_, rfl, gifts_forwardFailed nwk param macDst⟩
      | some added =>
        obtain ⟨recorded, started⟩ := added
        obtain ⟨-, i, hfree, hrecorded⟩ := addBtr_eq_some hadd
        rcases hcases with ⟨-, hfull⟩ | ⟨hrouter, hfull⟩
        · rw [hfree] at hfull
          contradiction
        · have hsame : recorded.packets = nwk.packets ∧
              recorded.deviceType = nwk.deviceType ∧
              recorded.brrt = nwk.brrt := by
            rw [hrecorded]
            exact ⟨rfl, rfl, rfl⟩
          obtain ⟨hpackets, htype, hbrrt⟩ := hsame
          obtain ⟨result, hresult, hgift⟩ :=
            recorded.forwardTo_full (hpackets ▸ hbroadcast) (htype ▸ hrouter)
              (hbrrt ▸ hfull) macDst indirect
          dsimp only
          rw [hresult]
          refine ⟨_, rfl, ?_⟩
          rw [gifts_append]
          exact mem_append_right _ hgift
    · rename_i hknown
      rcases hcases with ⟨hnew, -⟩ | ⟨hrouter, hfull⟩
      · exact absurd ⟨hbroadcast, hnew⟩ hknown
      · exact nwk.forwardTo_full hbroadcast hrouter hfull macDst indirect

end NwkMain

end Zboss
