import Zboss.BroadcastTables
import Zboss.UnauthenticatedFrames

/-!
# Suppression of repeated broadcasts

A record in the broadcast transaction table is only taken away by the tick
which finds that its time has run out, and until then all frames of the same
broadcast are dropped.  The record of a frame is made before the frame is
authenticated.
-/

namespace Zboss

open Function Option NwkMain TransitionSystem

def HasRecord
    (btt : NwkArray nwkBtrTableSize NwkBtr) (sourceAddr sequenceNumber ticks : ℕ) :
    Prop :=
  ∃ i, i < nwkBtrTableSize ∧ btt.used i = true ∧ (btt.ents i).sourceAddr = sourceAddr ∧
    (btt.ents i).sequenceNumber = sequenceNumber ∧
    ticks ≤ (btt.ents i).expirationTime

section Records

variable {btt : NwkArray nwkBtrTableSize NwkBtr} {sourceAddr sequenceNumber ticks : ℕ}

theorem HasRecord.takeEnt {j : ℕ} {ent : NwkBtr}
    (hrecord : HasRecord btt sourceAddr sequenceNumber ticks)
    (hfree : btt.freeEnt = some j) :
    HasRecord (btt.takeEnt j ent) sourceAddr sequenceNumber ticks := by
  obtain ⟨i, hi, hused, hent⟩ := hrecord
  obtain ⟨-, hunused⟩ := NwkArray.freeEnt_eq_some hfree
  have hne : i ≠ j := by
    rintro rfl
    rw [hunused] at hused
    contradiction
  have hsame : (btt.takeEnt j ent).ents i = btt.ents i := update_of_ne hne ..
  refine ⟨i, hi, (update_of_ne hne ..).trans hused, ?_⟩
  rw [hsame]
  exact hent

theorem hasRecord_takeEnt {j : ℕ} (hfree : btt.freeEnt = some j) : HasRecord
      (btt.takeEnt j ⟨nwkBroadcastDeliveryTime, sourceAddr, sequenceNumber⟩)
      sourceAddr sequenceNumber nwkBroadcastDeliveryTime := by
  obtain ⟨hj, -⟩ := NwkArray.freeEnt_eq_some hfree
  have hent : (btt.takeEnt j
      ⟨nwkBroadcastDeliveryTime, sourceAddr, sequenceNumber⟩).ents j =
        ⟨nwkBroadcastDeliveryTime, sourceAddr, sequenceNumber⟩ :=
    update_self ..
  refine ⟨j, hj, update_self .., ?_⟩
  rw [hent]
  exact ⟨rfl, rfl, Nat.le_refl _⟩

theorem HasRecord.findEnt_ne_none
    (hrecord : HasRecord btt sourceAddr sequenceNumber ticks) :
    (btt.findEnt fun ent => ent.sourceAddr == sourceAddr &&
      ent.sequenceNumber == sequenceNumber) ≠ none := by
  obtain ⟨i, hi, hused, hsource, hseq, -⟩ := hrecord
  intro hnone
  have hother := NwkArray.findEnt_eq_none.mp hnone i hi hused
  rw [hsource, hseq, beq_self_eq_true, beq_self_eq_true] at hother
  contradiction

theorem btrExpiryLoop_of_notMem
    (btt : NwkArray nwkBtrTableSize NwkBtr) {entries : List ℕ} {i : ℕ}
    (hi : i ∉ entries) :
    (btrExpiryLoop btt entries).used i = btt.used i ∧
      (btrExpiryLoop btt entries).ents i = btt.ents i := by
  induction entries generalizing btt with
  | nil => exact ⟨rfl, rfl⟩
  | cons j rest ih =>
    have hne : i ≠ j := List.ne_of_not_mem_cons hi
    have hrest : i ∉ rest := List.not_mem_of_not_mem_cons hi
    rw [btrExpiryLoop]
    split
    · split
      · obtain ⟨hused, hent⟩ := ih (btt.setEnt j
          { btt.ents j with
            expirationTime := (btt.ents j).expirationTime - 1 }) hrest
        exact ⟨hused, hent.trans (update_of_ne hne ..)⟩
      · obtain ⟨hused, hent⟩ := ih (btt.putEnt j) hrest
        exact ⟨hused.trans (update_of_ne hne ..), hent⟩
    · exact ih btt hrest

theorem btrExpiryLoop_of_mem
    {entries : List ℕ} {i : ℕ} (hnodup : entries.Nodup) (hi : i ∈ entries)
    (hused : btt.used i = true) (htime : (btt.ents i).expirationTime ≠ 0) :
    (btrExpiryLoop btt entries).used i = true ∧ (btrExpiryLoop btt entries).ents i =
        { btt.ents i with
          expirationTime := (btt.ents i).expirationTime - 1 } := by
  induction entries generalizing btt with
  | nil => exact absurd hi List.not_mem_nil
  | cons j rest ih =>
    obtain ⟨hj, hrest⟩ := List.nodup_cons.mp hnodup
    rw [btrExpiryLoop]
    by_cases heq : i = j
    · subst heq
      rw [if_pos hused, if_pos htime]
      obtain ⟨hsame, hent⟩ := btrExpiryLoop_of_notMem (btt.setEnt i
          { btt.ents i with
            expirationTime := (btt.ents i).expirationTime - 1 }) hj
      exact ⟨hsame.trans hused, hent.trans (update_self ..)⟩
    · have hmem : i ∈ rest := List.mem_of_ne_of_mem heq hi
      split
      · split
        · have hsame : (btt.setEnt j
              { btt.ents j with
                expirationTime := (btt.ents j).expirationTime - 1 }).ents i =
              btt.ents i := update_of_ne heq ..
          rw [← hsame]
          exact ih hrest hmem hused (hsame ▸ htime)
        · exact ih hrest hmem ((update_of_ne heq ..).trans hused) htime
      · exact ih hrest hmem hused htime

end Records

theorem HasRecord.btrExpiry {nwk : NwkMain} {sourceAddr sequenceNumber ticks : ℕ}
    (hrecord : HasRecord nwk.btt sourceAddr sequenceNumber (ticks + 1)) :
    HasRecord nwk.zbNwkBtrExpiry.1.btt sourceAddr sequenceNumber ticks := by
  obtain ⟨i, hi, hused, hsource, hseq, hticks⟩ := hrecord
  unfold zbNwkBtrExpiry
  split
  · have htime : (nwk.btt.ents i).expirationTime ≠ 0 := by omega
    obtain ⟨hlive, hent⟩ := btrExpiryLoop_of_mem
      (List.nodup_range (n := nwkBtrTableSize)) (List.mem_range.mpr hi) hused
      htime
    refine ⟨i, hi, hlive, ?_⟩
    dsimp only
    rw [hent]
    exact ⟨hsource, hseq, by dsimp only; omega⟩
  · exact ⟨i, hi, hused, hsource, hseq, Nat.le_of_succ_le hticks⟩

namespace BroadcastRun

variable {run : BroadcastRun} {sourceAddr sequenceNumber ticks : ℕ}

/-! ## Records stay -/

theorem addBtr_hasRecord {nwk next : NwkMain} {source seq : ℕ} {started : List NwkOutput}
    (hadd : nwk.addBtr source seq = some (next, started))
    (hrecord : HasRecord nwk.btt sourceAddr sequenceNumber ticks) :
    HasRecord next.btt sourceAddr sequenceNumber ticks := by
  obtain ⟨-, i, hfree, rfl⟩ := addBtr_eq_some hadd
  exact hrecord.takeEnt hfree

theorem indication_hasRecord {nwk : NwkMain} {param : ℕ} {packet : NwkPacket} {lqi : UInt8}
    {unsecure : NwkMain.Unsecure} {result : NwkMain × List NwkOutput}
    (hrecord : HasRecord nwk.btt sourceAddr sequenceNumber ticks)
    (hindication : nwk.zbMcpsDataIndication param packet lqi unsecure = some result) :
    HasRecord result.1.btt sourceAddr sequenceNumber ticks := by
  cases zbMcpsDataIndication_cases hindication with
  | bad _ => exact hrecord
  | repeated _ hmark _ =>
    rw [(markPassiveAck_spec hmark).btt]
    exact hrecord
  | full _ hmark _ _ =>
    rw [(markPassiveAck_spec hmark).btt]
    exact hrecord
  | broadcast _ hmark _ hadd hhandle =>
    rw [(handleFrame_spec hhandle).1.btt]
    apply addBtr_hasRecord hadd
    have hbtt := (markPassiveAck_spec hmark).btt
    dsimp only at hbtt
    rw [hbtt]
    exact hrecord
  | unicast _ hhandle =>
    rw [(handleFrame_spec hhandle).1.btt]
    exact hrecord

theorem forward_hasRecord {nwk : NwkMain} {param : ℕ} {result : NwkMain × List NwkOutput}
    (hrecord : HasRecord nwk.btt sourceAddr sequenceNumber ticks)
    (hforward : nwk.zbNwkForward param = some result) :
    HasRecord result.1.btt sourceAddr sequenceNumber ticks := by
  have hfailed : ∀ (next : NwkMain) (macDst : ℕ),
      HasRecord next.btt sourceAddr sequenceNumber ticks →
        HasRecord (next.forwardFailed param macDst).1.btt sourceAddr
          sequenceNumber ticks := by
    intro next macDst hnext
    obtain ⟨⟨zg, hzg⟩, -⟩ := forwardFailed_spec next param macDst
    rw [hzg]
    exact hnext
  have hrouted : ∀ {routed : NwkMain} {ret : CalcDestination} {outputs : List NwkOutput},
      nwk.nwkCalcDestination param = some (routed, ret, outputs) →
        HasRecord routed.btt sourceAddr sequenceNumber ticks := by
    intro routed ret outputs hcalc
    rw [(routesChanged_tables (nwkCalcDestination_calculates hcalc).changed).1]
    exact hrecord
  have hrecorded : ∀ {routed next : NwkMain} {started : List NwkOutput},
      HasRecord routed.btt sourceAddr sequenceNumber ticks →
      NwkMain.Recorded routed param next started →
        HasRecord next.btt sourceAddr sequenceNumber ticks := by
    intro routed next started hbefore hrec
    cases hrec with
    | kept => exact hbefore
    | added _ hadd => exact addBtr_hasRecord hadd hbefore
  cases zbNwkForward_cases hforward with
  | waits hcalc => exact hrouted hcalc
  | noDestination hcalc => exact hfailed _ _ (hrouted hcalc)
  | noRecord hcalc _ => exact hfailed _ _ (hrouted hcalc)
  | noRetransmit hcalc hrec _ =>
    have hmade := hrecorded (hrouted hcalc) hrec
    exact hfailed _ _ hmade
  | sent hcalc hrec =>
    have hmade := hrecorded (hrouted hcalc) hrec
    exact hmade
  | retransmits hcalc hrec _ =>
    have hmade := hrecorded (hrouted hcalc) hrec
    exact hmade

theorem transmit_btt {nwk : NwkMain} {param : ℕ} {result : NwkMain × List NwkOutput}
    (htransmit : nwk.nwkBroadcastTransmition param = some result) :
    result.1.btt = nwk.btt := by
  obtain ⟨⟨ents, hents⟩, hpicked⟩ := nwk.pickBroadcast_spec
  unfold nwkBroadcastTransmition at htransmit
  split at htransmit
  · rename_i picked i child hpick
    rw [hpick] at hents hpicked
    dsimp only at hents
    obtain ⟨hi, hused⟩ := hpicked i child rfl
    subst hents
    split at htransmit
    · obtain rfl := some.inj htransmit
      rfl
    · exact (transmitEnt_spec htransmit hi hused).btt
  · rename_i picked hpick
    rw [hpick] at hents
    dsimp only at hents
    subst hents
    obtain rfl := some.inj htransmit
    rfl

end BroadcastRun

def BroadcastInput.isTick (input : BroadcastInput) : Bool :=
  match input.event with
  | .btrExpiry => true
  | _ => false

namespace BroadcastRun

variable {run : BroadcastRun} {sourceAddr sequenceNumber ticks : ℕ}

theorem step_hasRecord {input : BroadcastInput} {next : BroadcastRun}
    (hrecord : HasRecord run.nwk.btt sourceAddr sequenceNumber
      (ticks + input.isTick.toNat))
    (hstep : run.step input = some next) :
    HasRecord next.nwk.btt sourceAddr sequenceNumber ticks := by
  obtain ⟨event, accepted⟩ := input
  cases event with
  | receive param packet lqi unsecure =>
    obtain ⟨result, hindication, rfl⟩ := map_eq_some_iff.mp hstep
    exact indication_hasRecord hrecord hindication
  | forward param =>
    obtain ⟨result, hforward, rfl⟩ := map_eq_some_iff.mp hstep
    exact forward_hasRecord hrecord hforward
  | transmit activation =>
    obtain ⟨⟨called, param⟩, hconsume, hrest⟩ := bind_eq_some_iff.mp hstep
    obtain ⟨result, htransmit, rfl⟩ := map_eq_some_iff.mp hrest
    rw [follow, transmit_btt htransmit, consume_nwk hconsume]
    exact hrecord
  | newBuffer param =>
    obtain rfl := some.inj hstep
    rw [follow, (run.nwk.newBufferAllocated_sameTables param).btt]
    exact hrecord
  | btrExpiry =>
    obtain rfl := some.inj hstep
    exact hrecord.btrExpiry
  | leave param rejoin =>
    obtain rfl := some.inj hstep
    obtain ⟨hbtt, -, -⟩ := zbNwkDoLeave_spec run.nwk param rejoin
    rw [follow, hbtt]
    exact hrecord
  | environment changed =>
    obtain rfl := some.inj hstep
    exact hrecord

/-- A received frame of the broadcast is dropped: it is neither indicated nor
sent on, and its buffer is freed.  Another buffer is confirmed if all neighbors
have been heard now. -/
def DropsDuplicate (sourceAddr sequenceNumber : ℕ) (run : BroadcastRun)
    (input : BroadcastInput) : Prop :=
  ∀ param packet lqi unsecure next outputs,
    input.event = .receive param packet lqi unsecure →
    nwkIsAddressBroadcast packet.dstAddr = true →
    packet.srcAddr = sourceAddr → packet.seqNum = sequenceNumber →
    run.nwk.zbMcpsDataIndication param packet lqi unsecure = some (next, outputs) →
      outputs = [.freeBuf param] ∨
        ∃ buf, outputs = [.schedule .nwkCallBrConfirm buf, .freeBuf param]

theorem dropsDuplicate_of_hasRecord (input : BroadcastInput)
    (hrecord : HasRecord run.nwk.btt sourceAddr sequenceNumber ticks) :
    DropsDuplicate sourceAddr sequenceNumber run input := by
  intro param packet lqi unsecure next outputs _ hbroadcast hsource hseq hindication
  subst hsource
  subst hseq
  have hknown : ∀ {marked : NwkMain} {acked : List NwkOutput},
      (run.nwk.receivedFrame param packet).markPassiveAck packet = some (marked, acked) →
      marked.findBtr packet.srcAddr packet.seqNum ≠ none := by
    intro marked acked hmark
    have hbtt := (markPassiveAck_spec hmark).btt
    dsimp only at hbtt
    rw [findBtr, hbtt]
    exact hrecord.findEnt_ne_none
  cases zbMcpsDataIndication_cases hindication with
  | bad _ => exact .inl rfl
  | repeated _ hmark _ =>
    rcases (markPassiveAck_spec hmark).outputs with
      hnone | ⟨buf, hconfirm⟩
    · dsimp only at hnone
      rw [hnone]
      exact .inl rfl
    · dsimp only at hconfirm
      rw [hconfirm]
      exact .inr ⟨buf, rfl⟩
  | full _ hmark hnew _ => exact absurd hnew (hknown hmark)
  | broadcast _ hmark hnew _ _ => exact absurd hnew (hknown hmark)
  | unicast hunicast _ =>
    rw [hunicast] at hbroadcast
    contradiction

theorem alongRun_dropsDuplicate {inputs : List BroadcastInput}
    (hrecord : HasRecord run.nwk.btt sourceAddr sequenceNumber ticks)
    (hticks : inputs.countP BroadcastInput.isTick ≤ ticks) :
    AlongRun step (DropsDuplicate sourceAddr sequenceNumber) run inputs := by
  induction inputs generalizing run ticks with
  | nil => trivial
  | cons input rest ih =>
    refine ⟨dropsDuplicate_of_hasRecord input hrecord, ?_⟩
    intro next hstep
    have hcount : rest.countP BroadcastInput.isTick + input.isTick.toNat ≤
        ticks := by
      rw [List.countP_cons] at hticks
      cases htick : input.isTick with
      | true => rwa [htick] at hticks
      | false => rwa [htick] at hticks
    have hbefore : HasRecord run.nwk.btt sourceAddr sequenceNumber
        (rest.countP BroadcastInput.isTick + input.isTick.toNat) := by
      obtain ⟨i, hi, hused, hsource, hseq, htime⟩ := hrecord
      exact ⟨i, hi, hused, hsource, hseq, hcount.trans htime⟩
    exact ih (step_hasRecord hbefore hstep) (Nat.le_refl _)

theorem unsecureFailed_btt
    {nwk next : NwkMain} {param : ℕ} {packet : NwkPacket} {lqi : UInt8}
    {unsecure : NwkMain.Unsecure} {outputs : List NwkOutput}
    (hindication : nwk.zbMcpsDataIndication param packet lqi unsecure =
      some (next, outputs))
    (hfailed : .unsecureFailed param ∈ outputs) :
    (nwkIsAddressBroadcast packet.dstAddr = false ∧ next.btt = nwk.btt) ∨
      (nwkIsAddressBroadcast packet.dstAddr = true ∧
        ∃ i, nwk.btt.freeEnt = some i ∧ next.btt = nwk.btt.takeEnt i
              ⟨nwkBroadcastDeliveryTime, packet.srcAddr, packet.seqNum⟩) := by
  have hacked : ∀ {acked : List NwkOutput},
      (acked = [] ∨ ∃ buf, acked = [.schedule .nwkCallBrConfirm buf]) →
        .unsecureFailed param ∉ acked ++ [.freeBuf param] := by
    rintro acked (rfl | ⟨buf, rfl⟩) hmem
    · simp at hmem
    · simp at hmem
  cases zbMcpsDataIndication_cases hindication with
  | bad _ => simp at hfailed
  | repeated _ hmark _ => exact absurd hfailed (hacked (markPassiveAck_spec hmark).outputs)
  | full _ hmark _ _ => exact absurd hfailed (hacked (markPassiveAck_spec hmark).outputs)
  | broadcast hbroadcast hmark _ hadd hhandle =>
    have hbtt := (markPassiveAck_spec hmark).btt
    dsimp only at hbtt
    obtain ⟨-, i, hfree, rfl⟩ := addBtr_eq_some hadd
    rw [hbtt] at hfree
    refine .inr ⟨hbroadcast, i, hfree, ?_⟩
    have hsame := (handleFrame_spec hhandle).1.btt
    dsimp only at hsame
    rw [hsame, hbtt]
    rfl
  | unicast hunicast hhandle => exact .inl ⟨hunicast, (handleFrame_spec hhandle).1.btt⟩

/-- From the moment in which a broadcast is recorded to the tick which ends the
record, all frames of the broadcast are dropped.  A frame which fails the
security processing leaves the table as it was, except that a broadcast frame
has its own record. -/
theorem suppressesDuplicates : (∀ (run : BroadcastRun) (inputs : List BroadcastInput)
        (sourceAddr sequenceNumber ticks : ℕ),
      HasRecord run.nwk.btt sourceAddr sequenceNumber ticks →
      inputs.countP BroadcastInput.isTick ≤ ticks →
        AlongRun step (DropsDuplicate sourceAddr sequenceNumber) run inputs) ∧
    (∀ (nwk next : NwkMain) (sourceAddr sequenceNumber : ℕ) (started : List NwkOutput),
      nwk.addBtr sourceAddr sequenceNumber = some (next, started) →
        HasRecord next.btt sourceAddr sequenceNumber nwkBroadcastDeliveryTime) ∧
    ∀ (nwk next : NwkMain) (param : ℕ) (packet : NwkPacket) (lqi : UInt8)
        (unsecure : NwkMain.Unsecure) (outputs : List NwkOutput),
      nwk.zbMcpsDataIndication param packet lqi unsecure = some (next, outputs) →
      .unsecureFailed param ∈ outputs →
        (nwkIsAddressBroadcast packet.dstAddr = false ∧ next.btt = nwk.btt) ∨
          (nwkIsAddressBroadcast packet.dstAddr = true ∧ ∃ i, nwk.btt.freeEnt = some i ∧
              next.btt = nwk.btt.takeEnt i ⟨nwkBroadcastDeliveryTime, packet.srcAddr,
                    packet.seqNum⟩) := by
  refine ⟨?_, ?_, ?_⟩
  · intro run inputs sourceAddr sequenceNumber ticks hrecord hticks
    exact alongRun_dropsDuplicate hrecord hticks
  · intro nwk next sourceAddr sequenceNumber started hadd
    obtain ⟨-, i, hfree, rfl⟩ := addBtr_eq_some hadd
    exact hasRecord_takeEnt hfree
  · intro nwk next param packet lqi unsecure outputs hindication hfailed
    exact unsecureFailed_btt hindication hfailed

end BroadcastRun

def securedNwk : NwkMain :=
  { broadcastingNwk with
    mesh := { broadcastingNwk.mesh with zg := childReceiver } }

def unsecureBuf (nsdu : Buf) (mhr : MacMhr) : NwkMain.Unsecure := fun zg =>
  (zbNwkUnsecureFrame pairedCipher zg nsdu mhr 9 0 emptyKey).map
    fun (zg, _, ret) => (zg, ret)

def forgedBroadcast : Buf :=
  (Buf.store { Buf.zeroed with len := 27, dataOffset := 20 } 20
    ([0x08, 0x02, 0xFF, 0xFF, 2, 0, 5, 7] ++
      ((fillAux (pairedSender 5) false 0).2.zeroedLevel.toBytes ++
        [1, 2, 3, 4, 5]))).getD .zeroed

def forgedPacket : NwkPacket where
  macHdr := true
  nwkHdr := true
  payload := .data
  security := true
  discoverRoute := false
  dstIeeeAddr := none
  dstAddr := nwkBroadcastAllDevices
  srcAddr := 2
  radius := 5
  seqNum := 7
  macSource := some 2
  macDst := nwkBroadcastAllDevices
  indirect := false
  handle := 0

namespace BroadcastRun

theorem indication_forgedBroadcast :
    ∃ next, securedNwk.zbMcpsDataIndication 1 forgedPacket 255
          (unsecureBuf forgedBroadcast forgedMhr) =
        some (next, [.cancelAlarm .nwkBtrExpiry, .setAlarm .nwkBtrExpiry,
          .unsecureFailed 1]) := by
  have houtputs : (securedNwk.zbMcpsDataIndication 1 forgedPacket 255
        (unsecureBuf forgedBroadcast forgedMhr)).map Prod.snd =
          some [.cancelAlarm .nwkBtrExpiry, .setAlarm .nwkBtrExpiry,
            .unsecureFailed 1] := by
    decide +kernel
  obtain ⟨⟨next, outputs⟩, hindication, rfl⟩ := map_eq_some_iff.mp houtputs
  exact ⟨next, hindication⟩

/-- After the forged broadcast the genuine one of the device 2 is dropped for
nine ticks. -/
theorem suppressesDuplicates_forgedBroadcast : ∃ next outputs,
      securedNwk.zbMcpsDataIndication 1 forgedPacket 255
          (unsecureBuf forgedBroadcast forgedMhr) = some (next, outputs) ∧
        next.btt = securedNwk.btt.takeEnt 0 ⟨9, 2, 7⟩ ∧
        AlongRun step (DropsDuplicate 2 7) ⟨next, ⟨0, 0, 0⟩⟩ [⟨.btrExpiry, true⟩,
            ⟨.receive 3 forgedPacket 255 fun zg => some (zg, .ok ()), true⟩] := by
  obtain ⟨next, hindication⟩ := indication_forgedBroadcast
  obtain ⟨hdrops, hrecords, hfails⟩ := suppressesDuplicates
  have hbtt : next.btt = securedNwk.btt.takeEnt 0 ⟨9, 2, 7⟩ := by
    rcases hfails _ _ _ _ _ _ _ hindication (by simp) with
      ⟨hunicast, -⟩ | ⟨-, i, hfree, hbtt⟩
    · exact absurd hunicast (by decide)
    · obtain rfl : 0 = i := some.inj ((by decide : _ = some 0).symm.trans
        hfree)
      exact hbtt
  have hrecord : HasRecord next.btt 2 7 9 := by
    rw [hbtt]
    exact hasRecord_takeEnt (by decide)
  exact ⟨next, _, hindication, hbtt, hdrops _ _ _ _ _ hrecord (by decide)⟩

/-- The forged broadcast fails the security processing and changes the
transaction table. -/
theorem not_unchanged_forgedBroadcast : ∃ next outputs,
      securedNwk.zbMcpsDataIndication 1 forgedPacket 255
          (unsecureBuf forgedBroadcast forgedMhr) = some (next, outputs) ∧
        .unsecureFailed 1 ∈ outputs ∧ next.btt ≠ securedNwk.btt := by
  obtain ⟨next, hindication⟩ := indication_forgedBroadcast
  have hmem : NwkOutput.unsecureFailed 1 ∈
      [.cancelAlarm .nwkBtrExpiry, .setAlarm .nwkBtrExpiry, .unsecureFailed 1] := by
    simp
  refine ⟨next, _, hindication, hmem, ?_⟩
  rcases unsecureFailed_btt hindication hmem with
    ⟨hunicast, -⟩ | ⟨-, i, hfree, hbtt⟩
  · exact absurd hunicast (by decide)
  · intro hsame
    have hcnt : next.btt.cnt = securedNwk.btt.cnt := congrArg NwkArray.cnt hsame
    rw [hbtt] at hcnt
    change securedNwk.btt.cnt + 1 = securedNwk.btt.cnt at hcnt
    exact absurd hcnt (by decide)

end BroadcastRun

end Zboss
