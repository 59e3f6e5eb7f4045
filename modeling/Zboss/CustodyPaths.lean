import Zboss.PacketCustody

/-!
# Custody on the other paths

Broadcasts which are sent again, received frames, route commands, confirms and
timers: none of them loses a packet, and what they give away is said.
-/

namespace Zboss

open Function Option List Silent NwkOutput SlotTable

namespace NwkMain

variable {nwk mid next : NwkMain} {param buf : ℕ} {given : Prop}
  {outputs : List NwkOutput} {result : NwkMain × List NwkOutput}

theorem silent_scheduleTransmition (nwk : NwkMain) (sent : Bool) :
    Silent (nwk.scheduleTransmition sent) := by
  unfold scheduleTransmition
  split
  · cases sent with
    | true => exact ⟨rfl, rfl⟩
    | false => exact ⟨rfl, rfl⟩
  · exact ⟨rfl, rfl⟩

theorem sendBroadcast_keeps (nwk : NwkMain) (param : ℕ) (child : Option ℕ) (buf : ℕ) :
    SameCustody nwk (nwk.sendBroadcast param child) ∧
      KeepsHeaders nwk (nwk.sendBroadcast param child) buf := by
  cases child with
  | some n => exact ⟨⟨rfl, rfl, rfl⟩, keepsHeaders_setPacket rfl rfl⟩
  | none => exact ⟨⟨rfl, rfl, rfl⟩, keepsHeaders_of_packets rfl⟩

theorem held_rewritten (hrewritten : EntriesRewritten nwk next)
    (hbuf : ∀ i, (next.brrt.ents i).buf = (nwk.brrt.ents i).buf) (buf : ℕ) :
    next.held buf = nwk.held buf := by
  obtain ⟨ents, rfl⟩ := hrewritten
  have hbrrt : ({ nwk.brrt with ents := ents } : NwkArray nwkBrrTableSize
      NwkBroadcastRetransmit).holding (fun ent => ent.buf == buf) =
        nwk.brrt.holding (fun ent => ent.buf == buf) := by
    refine NwkArray.holding_congr rfl fun i => ?_
    exact congrArg (· == buf) (hbuf i)
  unfold held
  dsimp only
  rw [hbrrt]

variable {ent : NwkBroadcastRetransmit} {i : ℕ} {entries : List ℕ}

theorem setEnt_buf {brrt : NwkArray nwkBrrTableSize NwkBroadcastRetransmit}
    (hbuf : ent.buf = (brrt.ents i).buf) (j : ℕ) :
    ((brrt.setEnt i ent).ents j).buf = (brrt.ents j).buf := by
  have hents : (brrt.setEnt i ent).ents = update brrt.ents i ent := rfl
  rw [hents]
  by_cases hj : j = i
  · rw [hj, update_self, hbuf]
  · rw [update_of_ne hj]

theorem held_setEnt (hbuf : ent.buf = (nwk.brrt.ents i).buf) (buf : ℕ) :
    ({ nwk with brrt := nwk.brrt.setEnt i ent } : NwkMain).held buf = nwk.held buf :=
  held_rewritten ⟨_, rfl⟩ (setEnt_buf hbuf) buf

theorem putRetransmit_conserves (func : NwkCallback) (hi : i < nwkBrrTableSize)
    (hused : nwk.brrt.used i = true) (hbuf : (nwk.brrt.ents i).buf = param)
    (hway : func.onTheWay = true) (hfunc : func ≠ .nldeDataConfirm) :
    Conserves nwk buf 0 given
      ({ nwk with brrt := nwk.brrt.putEnt i }, [.schedule func param]) := by
  have hbrrt : (nwk.brrt.putEnt i).holding (fun ent => ent.buf == buf) +
      (param == buf).toNat = nwk.brrt.holding (fun ent => ent.buf == buf) := by
    rw [← hbuf]
    exact NwkArray.holding_putEnt hi hused
  have htasks : tasks [.schedule func param] = [(func, param)] := by
    simp [tasks, task, hway]
  have hgifts : gifts [.schedule func param] = [] := by simp [gifts, gift, hway]
  exact
    { count := by
        dsimp only
        rw [passed_of_task htasks hgifts]
        unfold held
        dsimp only
        omega
      gift hmem := by
        dsimp only at hmem
        rw [hgifts] at hmem
        contradiction
      headers := keepsHeaders_of_packets rfl
      confirm hmem := by
        dsimp only at hmem
        rw [htasks, mem_singleton] at hmem
        exact absurd (congrArg Prod.fst hmem).symm hfunc
      waits := WaitsInOrder.congr rfl }

theorem sendBroadcast_conserves
    (param : ℕ) (child : Option ℕ) (havoids : Avoids buf outputs) :
    Conserves nwk buf 0 given (nwk.sendBroadcast param child, outputs) := by
  obtain ⟨hsame, hheaders⟩ := nwk.sendBroadcast_keeps param child buf
  exact hsame.conserves hheaders havoids

theorem lastTransmission_conserves
    {i own : ℕ} (child : Option ℕ) (hi : i < nwkBrrTableSize)
    (hused : nwk.brrt.used i = true) (hown : (nwk.brrt.ents i).buf = own)
    (hbuf : buf ≠ param) (havoids : Avoids buf outputs) :
    Conserves nwk buf 0 given
      (({ nwk with brrt := nwk.brrt.putEnt i } : NwkMain).sendBroadcast own child,
        [.freeBuf param, .schedule .mcpsDataRequest own] ++ outputs) := by
  have hfreed : Conserves nwk buf 0 given (nwk, [.freeBuf param]) :=
    SameCustody.conserves ⟨rfl, rfl, rfl⟩ (keepsHeaders_of_packets rfl)
      (avoids_freeBuf hbuf)
  have hput := hfreed.append (putRetransmit_conserves .mcpsDataRequest hi hused
    hown rfl (by decide))
  exact hput.append (sendBroadcast_conserves own child havoids)

theorem copy_conserves (child : Option ℕ) (hbuf : buf ≠ param) (sent : NwkMain) :
    Conserves nwk buf 0 given (nwk.sendBroadcast param child,
        .schedule .mcpsDataRequest param :: sent.scheduleTransmition true) :=
  sendBroadcast_conserves param child ((avoids_schedule .mcpsDataRequest
    hbuf).append ((sent.silent_scheduleTransmition true).avoids buf))

theorem transmitEnt_conserves {child : Option ℕ} (hi : i < nwkBrrTableSize)
    (hused : nwk.brrt.used i = true) (hbuf : buf ≠ param)
    (hsend : nwk.transmitEnt param i child = some result) :
    Conserves nwk buf 0 given result := by
  obtain ⟨counted, hcount, hrest⟩ := bind_eq_some_iff.mp hsend
  have hheld := held_setEnt (countTransmission_buf hcount) buf
  have hcounted : Conserves { nwk with brrt := nwk.brrt.setEnt i counted } buf 0
      given result := by
    dsimp only at hrest
    split at hrest
    · obtain rfl := some.inj hrest
      have hown : ((nwk.brrt.setEnt i counted).ents i).buf = counted.buf :=
        congrArg NwkBroadcastRetransmit.buf (update_self ..)
      exact lastTransmission_conserves child hi hused hown hbuf
        ((silent_scheduleTransmition _ true).avoids buf)
    · obtain rfl := some.inj hrest
      refine (copy_conserves child hbuf _).of_same ?_ ?_
      · split
        · exact ⟨rfl, rfl, rfl⟩
        · exact ⟨rfl, rfl, rfl⟩
      · split
        · exact keepsHeaders_setPacket_of_ne hbuf
        · exact keepsHeaders_of_packets rfl
  exact hcounted.of_prior hheld (keepsHeaders_of_packets rfl) (WaitsInOrder.congr rfl)

theorem nwkBroadcastTransmition_conserves (hbuf : param ≠ 0 → buf ≠ param)
    (hsend : nwk.nwkBroadcastTransmition param = some result) :
    Conserves nwk buf 0 given result := by
  obtain ⟨hrewritten, hpicked⟩ := nwk.pickBroadcast_spec
  have hheld := held_rewritten hrewritten nwk.pickBroadcast_buf buf
  have hheaders : KeepsHeaders nwk nwk.pickBroadcast.1 buf := by
    obtain ⟨ents, heq⟩ := hrewritten
    rw [heq]
    exact keepsHeaders_of_packets rfl
  have hwaits : nwk.WaitsInOrder → nwk.pickBroadcast.1.WaitsInOrder := by
    obtain ⟨ents, heq⟩ := hrewritten
    rw [heq]
    exact WaitsInOrder.congr rfl
  have hserved : Conserves nwk.pickBroadcast.1 buf 0 given result := by
    have hused : nwk.pickBroadcast.1.brrt.used = nwk.brrt.used := by
      obtain ⟨ents, heq⟩ := hrewritten
      rw [heq]
    unfold nwkBroadcastTransmition at hsend
    split at hsend
    · rename_i picked i child hpick
      rw [hpick] at hpicked hused ⊢
      obtain ⟨hi, hlive⟩ := hpicked i child rfl
      split at hsend
      · obtain rfl := some.inj hsend
        exact SameCustody.conserves ⟨rfl, rfl, rfl⟩ (keepsHeaders_of_packets rfl)
          (avoids ⟨rfl, rfl⟩ buf)
      · rename_i hparam
        exact transmitEnt_conserves hi (hused ▸ hlive) (hbuf hparam) hsend
    · rename_i picked hpick
      rw [hpick]
      obtain rfl := some.inj hsend
      refine SameCustody.conserves ⟨rfl, rfl, rfl⟩ (keepsHeaders_of_packets rfl)
        (Avoids.append ?_ ((silent_scheduleTransmition _ false).avoids buf))
      split
      · rename_i hparam
        exact avoids_freeBuf (hbuf hparam)
      · exact avoids ⟨rfl, rfl⟩ buf
  exact hserved.of_prior hheld hheaders hwaits

/-! ## Received frames -/

theorem ackedEnt_conserves {i own : ℕ} (hi : i < nwkBrrTableSize)
    (hused : nwk.brrt.used i = true) (hbuf : ent.buf = (nwk.brrt.ents i).buf)
    (hown : ent.buf = own) :
    Conserves nwk buf 0 given ({ nwk with brrt := (nwk.brrt.setEnt i ent).putEnt i },
        [.schedule .nwkCallBrConfirm own]) := by
  have hentry : ((nwk.brrt.setEnt i ent).ents i).buf = own :=
    (congrArg NwkBroadcastRetransmit.buf (update_self ..)).trans hown
  have hput : Conserves { nwk with brrt := nwk.brrt.setEnt i ent } buf 0 given
      ({ nwk with brrt := (nwk.brrt.setEnt i ent).putEnt i },
        [.schedule .nwkCallBrConfirm own]) :=
    putRetransmit_conserves .nwkCallBrConfirm hi hused hentry rfl (by decide)
  exact hput.of_prior (held_setEnt hbuf buf) (keepsHeaders_of_packets rfl)
    (WaitsInOrder.congr rfl)

theorem markedEnt_conserves (hbuf : ent.buf = (nwk.brrt.ents i).buf) :
    Conserves nwk buf 0 given ({ nwk with brrt := nwk.brrt.setEnt i ent }, []) :=
  conserves_of_avoids (held_setEnt hbuf buf) (keepsHeaders_of_packets rfl)
    (WaitsInOrder.congr rfl) (avoids ⟨rfl, rfl⟩ buf)

theorem markPassiveAck_conserves
    {packet : NwkPacket} (hmark : nwk.markPassiveAck packet = some result) :
    Conserves nwk buf 0 given result := by
  have hzg : ∀ zg, SameCustody nwk (nwk.setZg zg) := fun _ => ⟨rfl, rfl, rfl⟩
  have hheaders : ∀ zg, KeepsHeaders nwk (nwk.setZg zg) buf :=
    fun _ => keepsHeaders_of_packets rfl
  unfold markPassiveAck at hmark
  dsimp only at hmark
  split at hmark
  · rename_i i macSource _ hfound _
    obtain ⟨hi, hused, -⟩ := NwkArray.findEnt_eq_some hfound
    split at hmark
    · rename_i zg n _
      split at hmark
      · split at hmark
        · obtain rfl := some.inj hmark
          refine Conserves.of_same ?_ (hzg zg) (hheaders zg)
          exact ackedEnt_conserves hi hused rfl rfl
        · obtain rfl := some.inj hmark
          refine Conserves.of_same ?_ (hzg zg) (hheaders zg)
          exact markedEnt_conserves rfl
      · contradiction
    · rename_i zg _
      obtain rfl := some.inj hmark
      exact (hzg zg).conserves (hheaders zg) (avoids ⟨rfl, rfl⟩ buf)
  · obtain rfl := some.inj hmark
    exact SameCustody.conserves ⟨rfl, rfl, rfl⟩ (keepsHeaders_of_packets rfl)
      (avoids ⟨rfl, rfl⟩ buf)

theorem WaitsInOrder.takeEnt
    (horder : nwk.WaitsInOrder) (hfree : nwk.waitAlloc.freeEnt = some i)
    (param : ℕ) :
    WaitsInOrder { nwk with waitAlloc := nwk.waitAlloc.takeEnt i param } := by
  obtain ⟨hused, -⟩ := horder
  obtain ⟨hi, hunused⟩ := NwkArray.freeEnt_eq_some hfree
  have hsize : nwkWaitAllocTableSize = 5 := rfl
  have hend : i = nwk.waitAlloc.cnt.toNat := by
    rw [hused, decide_eq_false_iff_not] at hunused
    refine (Nat.le_of_not_gt hunused).antisymm' (Nat.le_of_not_gt fun hlt => ?_)
    have hbefore := (List.find?_range_eq_some.mp hfree).2.2 _ hlt
    simp [hused] at hbefore
  have hcnt : (nwk.waitAlloc.cnt + 1).toNat = nwk.waitAlloc.cnt.toNat + 1 := by
    have hone : UInt8.toNat 1 = 1 := rfl
    rw [UInt8.toNat_add, hone]
    omega
  constructor
  · intro j
    change update nwk.waitAlloc.used i true j = decide (j < (nwk.waitAlloc.cnt + 1).toNat)
    rw [hcnt]
    by_cases hj : j = i
    · rw [hj, update_self, hend]
      simp
    · rw [update_of_ne hj, hused, decide_eq_decide]
      omega
  · change (nwk.waitAlloc.cnt + 1).toNat ≤ nwkWaitAllocTableSize
    omega

theorem WaitsInOrder.putEnt (horder : nwk.WaitsInOrder) (hsome : nwk.waitAlloc.cnt ≠ 0) :
    nwk.waitAlloc.cnt.toNat - 1 < nwkWaitAllocTableSize ∧
      nwk.waitAlloc.used (nwk.waitAlloc.cnt.toNat - 1) = true ∧
      WaitsInOrder
        { nwk with
          waitAlloc := nwk.waitAlloc.putEnt (nwk.waitAlloc.cnt.toNat - 1) } := by
  obtain ⟨hused, hcnt⟩ := horder
  have hpos : nwk.waitAlloc.cnt.toNat ≠ 0 := by
    intro hzero
    exact hsome (UInt8.toNat_inj.mp hzero)
  have hrest : (nwk.waitAlloc.cnt - 1).toNat = nwk.waitAlloc.cnt.toNat - 1 := by
    have hone : UInt8.toNat 1 = 1 := rfl
    have hlt := nwk.waitAlloc.cnt.toNat_lt
    rw [UInt8.toNat_sub, hone]
    omega
  refine ⟨by omega, ?_, ?_, ?_⟩
  · rw [hused, decide_eq_true_iff]
    omega
  · intro j
    change update nwk.waitAlloc.used (nwk.waitAlloc.cnt.toNat - 1) false
      j = decide (j < (nwk.waitAlloc.cnt - 1).toNat)
    rw [hrest]
    by_cases hj : j = nwk.waitAlloc.cnt.toNat - 1
    · rw [hj, update_self]
      simp
    · rw [update_of_ne hj, hused, decide_eq_decide]
      omega
  · change (nwk.waitAlloc.cnt - 1).toNat ≤ nwkWaitAllocTableSize
    omega

theorem dispose_conserves (hbuf : buf ≠ param) (disposed : Disposition) :
    Conserves nwk buf 0 given (nwk.dispose param disposed) := by
  have hsame : SameCustody nwk nwk := ⟨rfl, rfl, rfl⟩
  have hheaders : KeepsHeaders nwk nwk buf := keepsHeaders_of_packets rfl
  cases disposed with
  | indicate => exact hsame.conserves hheaders (avoids_schedule _ hbuf)
  | retransmit =>
    exact SameCustody.conserves ⟨rfl, rfl, rfl⟩
      (keepsHeaders_setPacket_of_ne hbuf) (avoids_schedule _ hbuf)
  | indicateAndRetransmit =>
    rw [dispose]
    split
    · rename_i i hfree
      have hwaits : (nwk.waitAlloc.takeEnt i param).holding (· == buf) =
          nwk.waitAlloc.holding (· == buf) := by
        rw [NwkArray.holding_takeEnt hfree, beq_false_of_ne hbuf.symm]
        rfl
      refine conserves_of_avoids ?_ (keepsHeaders_of_packets rfl)
        (fun horder => horder.takeEnt hfree param)
        (avoids ⟨rfl, rfl⟩ buf)
      unfold held
      dsimp only
      rw [hwaits]
      rfl
    · exact hsame.conserves hheaders (avoids_schedule _ hbuf)
  | drop => exact hsame.conserves hheaders (avoids_freeBuf hbuf)

theorem handleFrame_conserves {lqi : UInt8} {unsecure : Unsecure} (hbuf : buf ≠ param)
    (hhandle : nwk.handleFrame param lqi unsecure = some result) :
    Conserves nwk buf 0 given result := by
  obtain ⟨⟨zg, ret⟩, -, hrest⟩ := bind_eq_some_iff.mp hhandle
  cases ret with
  | error _ =>
    obtain rfl := some.inj hrest
    refine SameCustody.conserves ⟨rfl, rfl, rfl⟩ (keepsHeaders_of_packets rfl)
      (avoids_singleton hbuf ?_ ?_)
    · simp [task]
    · simp [gift]
  | ok _ =>
    obtain rfl := some.inj hrest
    dsimp only
    obtain ⟨zg', hlqi⟩ :=
      updateLqi_eq ((nwk.setZg zg).setPacket param
        { nwk.packets param with radius := (nwk.packets param).radius - 1 })
        (nwk.packets param).srcAddr lqi
    rw [hlqi]
    refine (dispose_conserves hbuf _).of_same ⟨rfl, rfl, rfl⟩ ?_
    exact keepsHeaders_of_packets (update_of_ne hbuf ..)

theorem zbMcpsDataIndication_conserves
    {packet : NwkPacket} {lqi : UInt8} {unsecure : Unsecure}
    (hbuf : buf ≠ param)
    (hindication : nwk.zbMcpsDataIndication param packet lqi unsecure =
      some result) : Conserves nwk buf 0 given result := by
  have hreceived : SameCustody nwk (nwk.receivedFrame param packet) := ⟨rfl, rfl, rfl⟩
  have hheaders : KeepsHeaders nwk (nwk.receivedFrame param packet) buf :=
    keepsHeaders_setPacket_of_ne hbuf
  have hdropped : ∀ marked, Conserves marked buf 0 given
      (marked, [.freeBuf param]) := fun marked =>
    SameCustody.conserves ⟨rfl, rfl, rfl⟩ (keepsHeaders_of_packets rfl)
      (avoids_freeBuf hbuf)
  cases zbMcpsDataIndication_cases hindication with
  | bad => exact hreceived.conserves hheaders (avoids_freeBuf hbuf)
  | repeated _ hmark _ =>
    exact ((markPassiveAck_conserves hmark).append (hdropped _)).of_same hreceived hheaders
  | full _ hmark _ _ =>
    exact ((markPassiveAck_conserves hmark).append (hdropped _)).of_same hreceived hheaders
  | @broadcast marked recorded next acked started outputs _ hmark _ hadd hhandle =>
    obtain ⟨hstarted, i, -, hrecorded⟩ := addBtr_eq_some hadd
    have hrecord : Conserves marked buf 0 given (recorded, started) := by
      rw [hstarted, hrecorded]
      exact SameCustody.conserves ⟨rfl, rfl, rfl⟩ (keepsHeaders_of_packets rfl)
        ((silent_startBtrExpiry _).avoids buf)
    exact (((markPassiveAck_conserves hmark).append hrecord).append
      (handleFrame_conserves hbuf hhandle)).of_same hreceived hheaders
  | unicast _ hhandle =>
    exact (handleFrame_conserves hbuf hhandle).of_same hreceived hheaders

theorem putWait_conserves
    {other : ℕ} (horder : nwk.WaitsInOrder) (hsome : nwk.waitAlloc.cnt ≠ 0)
    (hother : nwk.waitAlloc.ents (nwk.waitAlloc.cnt.toNat - 1) = other) :
    Conserves nwk buf 0 given
      ({ nwk with
          waitAlloc := nwk.waitAlloc.putEnt (nwk.waitAlloc.cnt.toNat - 1) },
        [.schedule .nwkForward other]) := by
  obtain ⟨hi, hused, hput⟩ := horder.putEnt hsome
  have hwaits : (nwk.waitAlloc.putEnt (nwk.waitAlloc.cnt.toNat - 1)).holding
      (· == buf) + (other == buf).toNat = nwk.waitAlloc.holding (· == buf) := by
    rw [← hother]
    exact NwkArray.holding_putEnt hi hused
  have hpassed : passed buf [.schedule .nwkForward other] =
      (other == buf).toNat := passed_of_task rfl rfl
  exact
    { count := by
        dsimp only
        rw [hpassed]
        unfold held
        dsimp only
        omega
      gift hmem := by simp [gifts, gift, NwkCallback.onTheWay] at hmem
      headers := keepsHeaders_of_packets rfl
      confirm hmem := by simp [tasks, task, NwkCallback.onTheWay] at hmem
      waits := fun _ => hput }

theorem copied_keepsHeaders (hbuf : buf ≠ param) (other : ℕ) : KeepsHeaders nwk
      ((nwk.setPacket param (nwk.packets other)).setPacket other
        { nwk.packets other with handle := nwkInternalNsduHandle }) buf := by
  have hsame : (nwk.setPacket param (nwk.packets other)).packets other =
      nwk.packets other := by
    by_cases heq : other = param
    · rw [← heq]
      exact update_self ..
    · exact update_of_ne heq ..
  refine (keepsHeaders_setPacket_of_ne hbuf).trans (keepsHeaders_setPacket ?_ ?_)
  · rw [hsame]
  · rw [hsame]

theorem newBufferAllocated_conserves
    (horder : nwk.WaitsInOrder) (hbuf : param ≠ 0 → buf ≠ param) :
    Conserves nwk buf 0 given (nwk.newBufferAllocated param) := by
  unfold newBufferAllocated
  split
  · rename_i hserved
    have hne := hbuf hserved.1
    obtain ⟨other, hother⟩ :
        ∃ other, nwk.waitAlloc.ents (nwk.waitAlloc.cnt.toNat - 1) = other :=
      ⟨_, rfl⟩
    dsimp only
    rw [hother]
    obtain ⟨copied, hcopied⟩ : ∃ copied, copied =
        (nwk.setPacket param (nwk.packets other)).setPacket other
          { nwk.packets other with handle := nwkInternalNsduHandle } := ⟨_, rfl⟩
    rw [← hcopied]
    have hsame : SameCustody nwk copied := by
      rw [hcopied]
      exact ⟨rfl, rfl, rfl⟩
    have hheaders : KeepsHeaders nwk copied buf := by
      rw [hcopied]
      exact copied_keepsHeaders hne other
    have hindicated : Conserves nwk buf 0 given
        (copied, [.schedule .nwkFrameIndication param]) :=
      hsame.conserves hheaders (avoids_schedule _ hne)
    have hforwarded := hindicated.append (putWait_conserves (horder.congr hsame.waitAlloc)
        (hsame.waitAlloc ▸ hserved.2) (hsame.waitAlloc ▸ hother))
    rw [← hsame.waitAlloc]
    refine hforwarded.append (SameCustody.conserves ⟨rfl, rfl, rfl⟩
      (keepsHeaders_of_packets rfl) (avoids ?_ buf))
    split
    · exact ⟨rfl, rfl⟩
    · exact ⟨rfl, rfl⟩
  · exact SameCustody.conserves ⟨rfl, rfl, rfl⟩ (keepsHeaders_of_packets rfl)
      (avoids ⟨rfl, rfl⟩ buf)

def resumed (buf : ℕ) (outputs : List MeshOutput) : ℕ :=
  outputs.countP fun output =>
    match output with
    | .forwardPending other _ => other == buf
    | _ => false

theorem resumed_forwardPending (other handle : ℕ) (outputs : List MeshOutput) :
    resumed buf (.forwardPending other handle :: outputs) =
      (other == buf).toNat + resumed buf outputs := by
  simp [resumed, countP_cons, Nat.add_comm, toNat_beq]

theorem resumed_append (first second : List MeshOutput) :
    resumed buf (first ++ second) = resumed buf first + resumed buf second :=
  countP_append

theorem passed_mesh (hbuf : buf ≠ param) (outputs : List MeshOutput) :
    passed buf (outputs.map (.mesh param)) = resumed buf outputs := by
  induction outputs with
  | nil => rfl
  | cons output rest ih =>
    have hfirst : passed buf [.mesh param output] = resumed buf [output] := by
      cases output with
      | forwardPending other handle =>
        rw [resumed_forwardPending]
        exact passed_of_task rfl rfl
      | _ =>
        exact (avoids_singleton hbuf (by simp [task])
          (by simp [gift, MeshOutput.disposes])).passed
    rw [map_cons, ← singleton_append, passed_append, ih, hfirst,
      ← resumed_append, singleton_append]

theorem gifts_mesh (hbuf : buf ≠ param) (outputs : List MeshOutput) :
    buf ∉ gifts (outputs.map (.mesh param)) := by
  intro hmem
  obtain ⟨_, houtput, hgift⟩ := mem_filterMap.mp hmem
  obtain ⟨output, -, rfl⟩ := mem_map.mp houtput
  rw [gift] at hgift
  split at hgift
  · exact hbuf (some.inj hgift).symm
  · contradiction

theorem tasks_mesh {func : NwkCallback} (outputs : List MeshOutput)
    (hmem : (func, buf) ∈ tasks (outputs.map (.mesh param))) :
    func = .nwkForward := by
  obtain ⟨_, houtput, htask⟩ := mem_filterMap.mp hmem
  obtain ⟨output, -, rfl⟩ := mem_map.mp houtput
  cases output with
  | forwardPending other handle => exact (congrArg Prod.fst (some.inj htask)).symm
  | _ => contradiction

theorem sendPending_held (destAddr buf : ℕ) (router : MeshRouter)
    (hentries : ∀ i ∈ entries, i < nwkPendingTableSize) :
    pendingHeld (sendPending destAddr router entries).1.pendingTable buf +
        resumed buf (sendPending destAddr router entries).2 =
      pendingHeld router.pendingTable buf := by
  induction entries generalizing router with
  | nil => rfl
  | cons i rest ih =>
    have hrest : ∀ j ∈ rest, j < nwkPendingTableSize :=
      fun j hj => hentries j (mem_cons_of_mem i hj)
    rw [sendPending]
    dsimp only
    split
    · rename_i hsent
      have hput : pendingHeld (router.putPending i).pendingTable buf +
          ((router.pendingTable i).used && (router.pendingTable i).buf == buf).toNat =
              pendingHeld router.pendingTable buf + 0 :=
        pendingHeld_update router.pendingTable buf (hentries i mem_cons_self) _
      rw [hsent.1, Bool.true_and] at hput
      have hih := ih (router.putPending i) hrest
      dsimp only
      rw [resumed_forwardPending]
      omega
    · exact ih router hrest

theorem rrepArrived_held (router : MeshRouter) (destAddr : ℕ) :
    pendingHeld (rrepArrived router destAddr).1.pendingTable buf +
        resumed buf (rrepArrived router destAddr).2 =
      pendingHeld router.pendingTable buf := by
  have hentries : ∀ i ∈ List.range nwkPendingTableSize,
      i < nwkPendingTableSize := fun i hi => mem_range.mp hi
  have hsent := sendPending_held destAddr buf router hentries
  unfold rrepArrived
  dsimp only
  split
  · rw [resumed_append]
    exact hsent
  · rw [resumed_append]
    exact hsent

theorem rrepPropagate_held (router : MeshRouter) (cmd : NwkCmdRrep)
    (pathCost senderAddr destAddr : ℕ) :
    pendingHeld (rrepPropagate router cmd pathCost senderAddr
          destAddr).1.pendingTable buf +
        resumed buf (rrepPropagate router cmd pathCost senderAddr destAddr).2 =
      pendingHeld router.pendingTable buf := by
  unfold rrepPropagate
  split
  · exact rrepArrived_held router destAddr
  · rfl

theorem zbNwkMeshRrepHandler_held
    (router : MeshRouter) (frame : MeshFrame) (cmd : NwkCmdRrep) :
    pendingHeld (zbNwkMeshRrepHandler router frame cmd).1.pendingTable buf +
        resumed buf (zbNwkMeshRrepHandler router frame cmd).2 =
      pendingHeld router.pendingTable buf := by
  obtain ⟨zg, hcost⟩ := nwkCalcPathCost_fst router frame.srcAddr
  unfold zbNwkMeshRrepHandler
  dsimp only
  rw [hcost]
  split
  · dsimp only
    split
    · rfl
    · exact rrepPropagate_held _ cmd _ _ _
  · dsimp only
    rw [putRoute_pendingTable]
    rfl

theorem resumed_rreqFailed
    (router : MeshRouter) (cmd : NwkCmdRreq) (discEnt routingEnt : Option ℕ) :
    resumed buf (rreqFailed router cmd discEnt routingEnt).2 = 0 := by
  unfold rreqFailed
  dsimp only
  split
  · rfl
  · rfl

theorem resumed_rreqPropagate (router : MeshRouter) (frame : MeshFrame) (cmd : NwkCmdRreq)
    (pathCost : ℕ) :
    resumed buf (rreqPropagate router frame cmd pathCost).2 = 0 := by
  unfold rreqPropagate
  dsimp only
  split
  · rfl
  · split
    · rfl
    · rfl

theorem resumed_rreqHandler (router : MeshRouter) (frame : MeshFrame) (cmd : NwkCmdRreq) :
    resumed buf (zbNwkMeshRreqHandler router frame cmd).2 = 0 := by
  obtain ⟨zg, ⟨-, heq⟩ | ⟨r, -, heq⟩⟩ := zbNwkMeshRreqHandler_cases router frame cmd
  · rw [heq]
    exact resumed_rreqFailed _ cmd none none
  · rw [heq]
    unfold rreqDiscovery
    split
    · dsimp only
      split
      · exact resumed_rreqPropagate _ frame cmd _
      · rfl
    · split
      · exact resumed_rreqPropagate _ frame cmd _
      · exact resumed_rreqFailed _ cmd none (some r)

theorem mesh_conserves {mesh : MeshRouter} {outputs : List MeshOutput} (flags : ℕ → Bool)
    (hbuf : buf ≠ param)
    (hheld : pendingHeld mesh.pendingTable buf + resumed buf outputs =
      pendingHeld nwk.mesh.pendingTable buf) :
    Conserves nwk buf 0 given ({ nwk with mesh := mesh, waitingBuf := flags },
        outputs.map (.mesh param)) where
  count := by
    dsimp only
    rw [passed_mesh hbuf]
    unfold held
    dsimp only
    omega
  gift hmem := absurd hmem (gifts_mesh hbuf outputs)
  headers := keepsHeaders_of_packets rfl
  confirm hmem := absurd (tasks_mesh outputs hmem) (by decide)
  waits := WaitsInOrder.congr rfl

theorem nwkFrameIndication_conserves (hbuf : buf ≠ param) :
    Conserves nwk buf 0 given (nwk.nwkFrameIndication param) := by
  have hsame : SameCustody nwk nwk := ⟨rfl, rfl, rfl⟩
  have hheaders : KeepsHeaders nwk nwk buf := keepsHeaders_of_packets rfl
  unfold nwkFrameIndication
  dsimp only
  split
  · exact hsame.conserves hheaders (avoids_schedule _ hbuf)
  · rename_i cmd _ _
    refine mesh_conserves nwk.waitingBuf hbuf ?_
    rw [resumed_rreqHandler, (keepsOwn_zbNwkMeshRreqHandler ..).pendingTable]
    rfl
  · rename_i cmd _ _
    exact mesh_conserves nwk.waitingBuf hbuf (zbNwkMeshRrepHandler_held _ _ cmd)
  · exact hsame.conserves hheaders (avoids_freeBuf hbuf)
  · exact hsame.conserves hheaders (avoids_freeBuf hbuf)
  · exact hsame.conserves hheaders (avoids_freeBuf hbuf)
  · exact hsame.conserves hheaders (avoids_freeBuf hbuf)
  · exact hsame.conserves hheaders (avoids_freeBuf hbuf)
  · refine hsame.conserves hheaders (avoids_singleton hbuf ?_ ?_)
    · simp [task]
    · simp [gift]
  · exact hsame.conserves hheaders (avoids ⟨rfl, rfl⟩ buf)

theorem zbNwkMeshInitiateRouteDiscovery_conserves (hbuf : buf ≠ param)
    (hstarts : nwk.zbNwkMeshInitiateRouteDiscovery param = some result) :
    Conserves nwk buf 0 given result := by
  obtain ⟨i, -, rfl⟩ := map_eq_some_iff.mp hstarts
  have hpending : ∀ macSource destAddr,
      pendingHeld (zbNwkMeshRouteDiscovery nwk.mesh macSource destAddr
            0).1.pendingTable buf +
          resumed buf (zbNwkMeshRouteDiscovery nwk.mesh macSource destAddr 0).2 =
        pendingHeld nwk.mesh.pendingTable buf := by
    intro macSource destAddr
    rw [zbNwkMeshRouteDiscovery, resumed_rreqHandler, (keepsOwn_zbNwkMeshRreqHandler ..).pendingTable]
    rfl
  exact mesh_conserves _ hbuf (hpending _ _)

/-- The handle keeps `zb_mcps_data_confirm` from confirming the packet to the
APS layer. -/
def InternalHandle (nwk : NwkMain) (param : ℕ) : Prop :=
  let handle := (nwk.packets param).handle
  handle = nwkInternalRejoinCmdHandle ∧ nwk.rejoining = true ∨
    handle = nwkInternalRejoinCmdResponse ∨ handle = nwkInternalLeaveIndHandle ∨
      handle = nwkInternalLeaveConfirmHandle ∨ handle = nwkInternalNsduHandle

instance (nwk : NwkMain) (param : ℕ) : Decidable (nwk.InternalHandle param) :=
  inferInstanceAs (Decidable (_ ∨ _))

theorem zbMcpsDataConfirm_spec (nwk : NwkMain) (param : ℕ) (success : Bool) :
    nwk.InternalHandle param ∧ tasks (nwk.zbMcpsDataConfirm param success) = [] ∧
        gifts (nwk.zbMcpsDataConfirm param success) = [param] ∨
      ¬ nwk.InternalHandle param ∧ tasks (nwk.zbMcpsDataConfirm param success) =
          [(.nldeDataConfirm, param)] ∧
        gifts (nwk.zbMcpsDataConfirm param success) = [] := by
  unfold zbMcpsDataConfirm InternalHandle
  dsimp only
  split
  · rename_i h
    exact .inl ⟨.inl h, rfl, rfl⟩
  · split
    · rename_i h
      exact .inl ⟨.inr (.inl h), rfl, rfl⟩
    · split
      · rename_i h
        exact .inl ⟨.inr (.inr (.inl h)), rfl, rfl⟩
      · split
        · rename_i h
          exact .inl ⟨.inr (.inr (.inr (.inl h))), rfl, rfl⟩
        · split
          · rename_i h
            refine .inl ⟨.inr (.inr (.inr (.inr h))), ?_⟩
            cases success with
            | true => exact ⟨rfl, rfl⟩
            | false => exact ⟨rfl, rfl⟩
          · rename_i hrejoin hresponse hleaveInd hleaveConfirm hnsdu
            refine .inr ⟨?_, ?_⟩
            · simp only [hrejoin, hresponse, hleaveInd, hleaveConfirm, hnsdu,
                or_false, not_false_eq_true]
            · cases success with
              | true => exact ⟨rfl, rfl⟩
              | false => exact ⟨rfl, rfl⟩

theorem zbMcpsDataConfirm_conserves (success : Bool)
    (hmac : buf = param → (nwk.packets param).macHdr = true) :
    Conserves nwk buf (param == buf).toNat (buf = param ∧ nwk.InternalHandle param)
      (nwk, nwk.zbMcpsDataConfirm param success) := by
  have hsame : SameCustody nwk nwk := ⟨rfl, rfl, rfl⟩
  have hheaders : KeepsHeaders nwk nwk buf := keepsHeaders_of_packets rfl
  rcases nwk.zbMcpsDataConfirm_spec param success with
    ⟨hinternal, htasks, hgifts⟩ | ⟨-, htasks, hgifts⟩
  · refine conserves_of_passed hsame hheaders (passed_of_gift htasks hgifts) ?_ ?_
    · rw [hgifts, mem_singleton]
      exact fun hbuf => ⟨hbuf, hinternal⟩
    · rw [htasks]
      exact not_mem_nil
  · exact
      { count := congrArg (nwk.held buf + ·) (passed_of_task htasks hgifts)
        gift hmem := by
          dsimp only at hmem
          rw [hgifts] at hmem
          contradiction
        headers := hheaders
        confirm hmem := by
          dsimp only at hmem
          rw [htasks, mem_singleton] at hmem
          have hbuf : buf = param := congrArg Prod.snd hmem
          rw [hbuf]
          exact hmac hbuf
        waits := id }

theorem zbNwkDoLeave_conserves (hbuf : buf ≠ param) (rejoin : Bool) :
    Conserves nwk buf 0 given (nwk.zbNwkDoLeave param rejoin) := by
  unfold zbNwkDoLeave
  cases rejoin with
  | true =>
    exact conserves_of_avoids rfl (keepsHeaders_of_packets rfl)
      (WaitsInOrder.congr rfl) (avoids_schedule _ hbuf)
  | false =>
    exact conserves_of_avoids rfl (keepsHeaders_of_packets rfl)
      (WaitsInOrder.congr rfl) (avoids_freeBuf hbuf)

def Expires (nwk : NwkMain) (buf : ℕ) : Prop :=
  nwk.mesh.pendingTableCnt ≠ 0 ∧ ∃ i, i < nwkPendingTableSize ∧
      (nwk.mesh.pendingTable i).used = true ∧
        (nwk.mesh.pendingTable i).buf = buf ∧ nwk.pendExpiry i = 0

instance (nwk : NwkMain) (buf : ℕ) : Decidable (nwk.Expires buf) :=
  inferInstanceAs (Decidable (_ ∧ _))

theorem gifts_expiryPendingLoop (hnodup : entries.Nodup) (nwk : NwkMain) (buf : ℕ) :
    buf ∈ gifts (nwk.expiryPendingLoop entries).2 ↔
      ∃ i ∈ entries, (nwk.mesh.pendingTable i).used = true ∧
        (nwk.mesh.pendingTable i).buf = buf ∧ nwk.pendExpiry i = 0 := by
  induction entries generalizing nwk with
  | nil => simp [expiryPendingLoop, gifts]
  | cons j rest ih =>
    obtain ⟨hj, hrest⟩ := nodup_cons.mp hnodup
    have hne : ∀ i ∈ rest, i ≠ j := fun i hi => ne_of_mem_of_not_mem hi hj
    rw [expiryPendingLoop, exists_mem_cons_iff]
    dsimp only
    split
    · rename_i hused
      split
      · rename_i hexpired
        have hfreed : ∀ outputs, gifts (.freeBuf (nwk.mesh.pendingTable j).buf ::
            outputs) = (nwk.mesh.pendingTable j).buf :: gifts outputs :=
          fun _ => rfl
        rw [hfreed, mem_cons, ih hrest]
        refine or_congr ?_ (exists_congr fun i => and_congr_right fun hi => ?_)
        · simp [hused, hexpired, eq_comm]
        · have hput : (nwk.mesh.putPending j).pendingTable i =
              nwk.mesh.pendingTable i := update_of_ne (hne i hi) ..
          dsimp only
          rw [hput]
      · rename_i hleft
        rw [ih hrest, or_iff_right (fun h => hleft h.2.2)]
        refine exists_congr fun i => and_congr_right fun hi => ?_
        dsimp only
        rw [update_of_ne (hne i hi)]
    · rename_i hunused
      rw [ih hrest, or_iff_right (fun h => hunused h.1)]

theorem putPending_conserves (hi : i < nwkPendingTableSize)
    (hused : (nwk.mesh.pendingTable i).used = true) :
    Conserves nwk buf 0 True ({ nwk with mesh := nwk.mesh.putPending i },
        [.freeBuf (nwk.mesh.pendingTable i).buf]) := by
  have hput : pendingHeld (nwk.mesh.putPending i).pendingTable buf +
      ((nwk.mesh.pendingTable i).used && (nwk.mesh.pendingTable i).buf == buf).toNat =
          pendingHeld nwk.mesh.pendingTable buf + 0 :=
    pendingHeld_update nwk.mesh.pendingTable buf hi _
  rw [hused, Bool.true_and] at hput
  have hpassed : passed buf [.freeBuf (nwk.mesh.pendingTable i).buf] =
      ((nwk.mesh.pendingTable i).buf == buf).toNat := passed_of_gift rfl rfl
  exact
    { count := by
        dsimp only
        rw [hpassed]
        unfold held
        dsimp only
        omega
      gift _ := trivial
      headers := keepsHeaders_of_packets rfl
      confirm hmem := absurd hmem not_mem_nil
      waits := WaitsInOrder.congr rfl }

theorem expiryPendingLoop_conserves (hentries : ∀ i ∈ entries, i < nwkPendingTableSize)
    (nwk : NwkMain) :
    Conserves nwk buf 0 True (nwk.expiryPendingLoop entries) := by
  induction entries generalizing nwk with
  | nil =>
    exact SameCustody.conserves ⟨rfl, rfl, rfl⟩ (keepsHeaders_of_packets rfl)
      (avoids ⟨rfl, rfl⟩ buf)
  | cons i rest ih =>
    have hrest : ∀ j ∈ rest, j < nwkPendingTableSize :=
      fun j hj => hentries j (mem_cons_of_mem i hj)
    rw [expiryPendingLoop]
    dsimp only
    split
    · rename_i hused
      split
      · have hput : Conserves nwk buf 0 True ({ nwk with mesh := nwk.mesh.putPending i },
              [.freeBuf (nwk.mesh.pendingTable i).buf]) :=
          putPending_conserves (hentries i mem_cons_self) hused
        exact hput.append (ih hrest _)
      · exact (ih hrest _).of_same ⟨rfl, rfl, rfl⟩ (keepsHeaders_of_packets rfl)
    · exact ih hrest nwk

theorem zbNwkMeshExpiryPending_conserves (nwk : NwkMain) (buf : ℕ) :
    Conserves nwk buf 0 (nwk.Expires buf) nwk.zbNwkMeshExpiryPending ∧
      (nwk.Expires buf → buf ∈ gifts nwk.zbNwkMeshExpiryPending.2) := by
  unfold zbNwkMeshExpiryPending
  split
  · rename_i hcnt
    have hgifts : buf ∈ gifts (nwk.expiryPendingLoop
        (List.range nwkPendingTableSize)).2 ↔ nwk.Expires buf := by
      rw [gifts_expiryPendingLoop nodup_range]
      simp only [Expires, mem_range, and_iff_right hcnt]
    have hloop : Conserves nwk buf 0 True
        (nwk.expiryPendingLoop (List.range nwkPendingTableSize)) :=
      expiryPendingLoop_conserves (fun i hi => mem_range.mp hi) nwk
    have hexpires : Conserves nwk buf 0 (nwk.Expires buf)
        (nwk.expiryPendingLoop (List.range nwkPendingTableSize)) :=
      { hloop with gift := hgifts.mp }
    constructor
    · exact hexpires.append (SameCustody.conserves ⟨rfl, rfl, rfl⟩
        (keepsHeaders_of_packets rfl) (avoids ⟨rfl, rfl⟩ buf))
    · intro hexpires
      dsimp only
      rw [gifts_append]
      exact mem_append_left _ (hgifts.mpr hexpires)
  · rename_i hcnt
    constructor
    · exact SameCustody.conserves ⟨rfl, rfl, rfl⟩ (keepsHeaders_of_packets rfl)
        (avoids ⟨rfl, rfl⟩ buf)
    · exact fun hexpires => absurd hexpires.1 hcnt

end NwkMain

end Zboss
