import Zboss.NwkMain

/-!
# The paths of a packet

The cases of `zb_nwk_forward`, `zb_mcps_data_indication` and
`nwk_broadcast_transmition`: what they change, and where they end.
-/

namespace Zboss

open Option

namespace NwkMain

variable {nwk next : NwkMain} {param macDst : ℕ} {outputs : List NwkOutput}

def RoutesChanged (nwk next : NwkMain) : Prop :=
  ∃ mesh waitingBuf pendExpiry, next =
      { nwk with
        mesh := mesh
        waitingBuf := waitingBuf
        pendExpiry := pendExpiry }

theorem RoutesChanged.refl (nwk : NwkMain) : RoutesChanged nwk nwk :=
  ⟨nwk.mesh, nwk.waitingBuf, nwk.pendExpiry, rfl⟩

theorem routesChanged_setZg (nwk : NwkMain) (zg : Globals) :
    RoutesChanged nwk (nwk.setZg zg) :=
  ⟨_, nwk.waitingBuf, nwk.pendExpiry, rfl⟩

theorem RoutesChanged.trans {last : NwkMain}
    (hfirst : RoutesChanged nwk next) (hsecond : RoutesChanged next last) :
    RoutesChanged nwk last := by
  obtain ⟨_, _, _, rfl⟩ := hfirst
  obtain ⟨mesh, waitingBuf, pendExpiry, rfl⟩ := hsecond
  exact ⟨mesh, waitingBuf, pendExpiry, rfl⟩

structure Calculates
    (nwk : NwkMain) (result : NwkMain × CalcDestination × List NwkOutput) :
    Prop where
  changed : RoutesChanged nwk result.1
  outputs : result.2.2 = [] ∨ result.2.1 = .busy ∧
      result.2.2 = [.getBufDelayed .meshInitiateRouteDiscovery false]

theorem waitForRoute_calculates (nwk : NwkMain) (param : ℕ) (discover : Bool) :
    Calculates nwk (nwk.waitForRoute param discover) := by
  unfold waitForRoute addBufToPending
  dsimp only
  cases nwkArrayGetEnt nwkPendingTableSize (fun i => (nwk.mesh.pendingTable i).used) with
  | some i =>
    cases discover with
    | false => exact ⟨⟨_, _, _, rfl⟩, .inl rfl⟩
    | true => exact ⟨⟨_, _, _, rfl⟩, .inr ⟨rfl, rfl⟩⟩
  | none => exact ⟨.refl nwk, .inl rfl⟩

theorem calcTreeDestination_calculates
    {destAddr : ℕ} {result : NwkMain × CalcDestination × List NwkOutput}
    (hcalc : nwk.calcTreeDestination destAddr = some result) :
    Calculates nwk result := by
  obtain ⟨⟨zg, row⟩, -, hrest⟩ := bind_eq_some_iff.mp hcalc
  cases row with
  | some n =>
    obtain rfl := some.inj hrest
    exact ⟨routesChanged_setZg nwk zg, .inl rfl⟩
  | none =>
    obtain rfl := some.inj hrest
    exact ⟨routesChanged_setZg nwk zg, .inl rfl⟩

theorem calcRoute_calculates {result : NwkMain × CalcDestination × List NwkOutput}
    (hcalc : nwk.calcRoute param = some result) : Calculates nwk result := by
  unfold calcRoute at hcalc
  dsimp only at hcalc
  split at hcalc
  · obtain rfl := some.inj hcalc
    exact waitForRoute_calculates nwk param true
  · split at hcalc
    · obtain rfl := some.inj hcalc
      exact ⟨⟨_, nwk.waitingBuf, nwk.pendExpiry, rfl⟩, .inl rfl⟩
    · obtain rfl := some.inj hcalc
      exact ⟨⟨_, nwk.waitingBuf, nwk.pendExpiry, rfl⟩, .inl rfl⟩
    · obtain rfl := some.inj hcalc
      exact waitForRoute_calculates nwk param _
    · split at hcalc
      · exact calcTreeDestination_calculates hcalc
      · obtain rfl := some.inj hcalc
        exact ⟨.refl nwk, .inl rfl⟩
    · split at hcalc
      · exact calcTreeDestination_calculates hcalc
      · obtain rfl := some.inj hcalc
        exact ⟨.refl nwk, .inl rfl⟩

theorem nwkCalcDestination_calculates {result : NwkMain × CalcDestination × List NwkOutput}
    (hcalc : nwk.nwkCalcDestination param = some result) :
    Calculates nwk result := by
  unfold nwkCalcDestination at hcalc
  dsimp only at hcalc
  split at hcalc
  · split at hcalc
    · obtain rfl := some.inj hcalc
      exact ⟨.refl nwk, .inl rfl⟩
    · obtain rfl := some.inj hcalc
      exact ⟨.refl nwk, .inl rfl⟩
  · split at hcalc
    · obtain rfl := some.inj hcalc
      exact ⟨.refl nwk, .inl rfl⟩
    · obtain ⟨⟨zg, row⟩, -, hrest⟩ := bind_eq_some_iff.mp hcalc
      have hzg := routesChanged_setZg nwk zg
      cases row with
      | some n =>
        obtain rfl := some.inj hrest
        exact ⟨hzg, .inl rfl⟩
      | none =>
        dsimp only at hrest
        split at hrest
        · obtain ⟨hchanged, houtputs⟩ := calcRoute_calculates hrest
          exact ⟨hzg.trans hchanged, houtputs⟩
        · obtain rfl := some.inj hrest
          exact ⟨hzg, .inl rfl⟩

theorem startBtrExpiry_spec (nwk : NwkMain) : nwk.startBtrExpiry = [] ∨
      nwk.startBtrExpiry = [.cancelAlarm .nwkBtrExpiry, .setAlarm .nwkBtrExpiry] := by
  unfold startBtrExpiry
  split
  · exact .inr rfl
  · exact .inl rfl

theorem addBtr_eq_some {sourceAddr sequenceNumber : ℕ} {started : List NwkOutput}
    (hadd : nwk.addBtr sourceAddr sequenceNumber = some (next, started)) :
    started = next.startBtrExpiry ∧ ∃ i, nwk.btt.freeEnt = some i ∧ next =
        { nwk with
          btt :=
            nwk.btt.takeEnt i
              ⟨nwkBroadcastDeliveryTime, sourceAddr, sequenceNumber⟩ } := by
  unfold addBtr at hadd
  split at hadd
  · rename_i i hfree
    obtain ⟨rfl, rfl⟩ := some_pair_inj hadd
    exact ⟨rfl, i, hfree, rfl⟩
  · contradiction

inductive Recorded (nwk : NwkMain) (param : ℕ) : NwkMain → List NwkOutput → Prop
  | kept : Recorded nwk param nwk []
  | added {started : List NwkOutput} {next : NwkMain}
      (hnew : nwk.findBtr (nwk.packets param).srcAddr (nwk.packets param).seqNum = none)
      (hadd : nwk.addBtr (nwk.packets param).srcAddr
        (nwk.packets param).seqNum = some (next, started)) :
      Recorded nwk param next started

def readyForMac (nwk : NwkMain) (param macDst : ℕ) (indirect : Bool) :
    NwkMain :=
  nwk.setPacket param { nwk.packets param with macDst := macDst, indirect := indirect }

def retransmitEnt (nwk : NwkMain) (param i : ℕ) : NwkBroadcastRetransmit :=
  { nwk.brrt.ents i with
    buf := param
    retries := 0
    srcAddr := (nwk.packets param).srcAddr
    dstAddr := (nwk.packets param).dstAddr
    seqNum := (nwk.packets param).seqNum
    neighborTableIterator := nextZeChildrenI nwk.mesh.zg (nwk.packets param).dstAddr 0
    passiveAck := ∅ }

inductive NoRoom (nwk : NwkMain) (param : ℕ) : Prop
  | btt (hbroadcast : nwkIsAddressBroadcast (nwk.packets param).dstAddr = true)
      (hnew : nwk.findBtr (nwk.packets param).srcAddr (nwk.packets param).seqNum = none)
      (hfull : nwk.btt.freeEnt = none)
  | brrt (hbroadcast : nwkIsAddressBroadcast (nwk.packets param).dstAddr = true)
      (hrouter : nwk.deviceType ≠ .endDevice)
      (hfull : nwkBrrTableSize ≤ nwk.brrt.cnt.toNat)

inductive ForwardCase (nwk : NwkMain) (param : ℕ) : NwkMain × List NwkOutput → Prop
  | waits {routed : NwkMain} {outputs : List NwkOutput}
      (hcalc : nwk.nwkCalcDestination param = some (routed, .busy, outputs)) :
      ForwardCase nwk param (routed, outputs)
  | noDestination {routed : NwkMain} {macDst : ℕ} {outputs : List NwkOutput}
      (hcalc : nwk.nwkCalcDestination param = some (routed, .error macDst, outputs)) :
      ForwardCase nwk param (routed.forwardFailed param macDst)
  | noRecord {routed : NwkMain} {macDst : ℕ} {indirect : Bool} {outputs : List NwkOutput}
      (hcalc : nwk.nwkCalcDestination param = some (routed, .ok macDst indirect, outputs))
      (hfull : NoRoom routed param) :
      ForwardCase nwk param (routed.forwardFailed param macDst)
  | noRetransmit {routed recorded : NwkMain} {macDst : ℕ} {indirect : Bool}
      {outputs started : List NwkOutput}
      (hcalc : nwk.nwkCalcDestination param = some (routed, .ok macDst indirect, outputs))
      (hrecorded : Recorded routed param recorded started)
      (hfull : NoRoom recorded param) :
      ForwardCase nwk param
        (((recorded.readyForMac param macDst indirect).forwardFailed param macDst).1,
          started ++ ((recorded.readyForMac param macDst indirect).forwardFailed param
              macDst).2)
  | sent {routed recorded : NwkMain} {macDst : ℕ} {indirect : Bool}
      {outputs started : List NwkOutput}
      (hcalc : nwk.nwkCalcDestination param = some (routed, .ok macDst indirect, outputs))
      (hrecorded : Recorded routed param recorded started) :
      ForwardCase nwk param (recorded.readyForMac param macDst indirect,
          started ++ [.schedule .mcpsDataRequest param])
  | retransmits {routed recorded : NwkMain} {macDst i : ℕ} {indirect : Bool}
      {outputs started : List NwkOutput}
      (hcalc : nwk.nwkCalcDestination param = some (routed, .ok macDst indirect, outputs))
      (hrecorded : Recorded routed param recorded started)
      (hfree : recorded.brrt.freeEnt = some i) :
      ForwardCase nwk param
        ({ recorded.readyForMac param macDst indirect with
            brrt :=
              recorded.brrt.takeEnt i
                ((recorded.readyForMac param macDst indirect).retransmitEnt param i) },
          started ++ [.cancelAlarm .nwkBroadcastTransmition,
              .getBufDelayed .nwkBroadcastTransmition false])

theorem forwardTo_cases
    {routed recorded : NwkMain} {indirect : Bool} {ended : NwkMain × List NwkOutput}
    {outputs started : List NwkOutput}
    (hcalc : nwk.nwkCalcDestination param = some (routed, .ok macDst indirect, outputs))
    (hrecorded : Recorded routed param recorded started)
    (hto : recorded.forwardTo param macDst indirect = some ended) :
    ForwardCase nwk param (ended.1, started ++ ended.2) := by
  unfold forwardTo at hto
  dsimp only at hto
  split at hto
  · rename_i hbroadcast
    unfold startRetransmit at hto
    dsimp only at hto
    split at hto
    · split at hto
      · rename_i i hfree
        obtain rfl := some.inj hto
        exact .retransmits hcalc hrecorded hfree
      · contradiction
    · rename_i hfull
      obtain rfl := some.inj hto
      exact .noRetransmit hcalc hrecorded
        (.brrt hbroadcast.1 hbroadcast.2 (Nat.le_of_not_gt hfull))
  · obtain rfl := some.inj hto
    exact .sent hcalc hrecorded

theorem zbNwkForward_cases {result : NwkMain × List NwkOutput}
    (hforward : nwk.zbNwkForward param = some result) :
    ForwardCase nwk param result := by
  obtain ⟨⟨routed, ret, outputs⟩, hcalc, hrest⟩ := bind_eq_some_iff.mp hforward
  cases ret with
  | busy =>
    obtain rfl := some.inj hrest
    exact .waits hcalc
  | error macDst =>
    obtain rfl := some.inj hrest
    exact .noDestination hcalc
  | ok macDst indirect =>
    dsimp only at hrest
    split at hrest
    · rename_i hnew
      cases hadd : routed.addBtr (routed.packets param).srcAddr
          (routed.packets param).seqNum with
      | some added =>
        rw [hadd] at hrest
        obtain ⟨⟨last, out⟩, hto, hlast⟩ := bind_eq_some_iff.mp hrest
        obtain rfl := some.inj hlast
        exact forwardTo_cases hcalc (.added hnew.2 hadd) hto
      | none =>
        rw [hadd] at hrest
        obtain rfl := some.inj hrest
        have hfull : routed.btt.freeEnt = none := by
          unfold addBtr at hadd
          split at hadd
          · contradiction
          · assumption
        exact .noRecord hcalc (.btt hnew.1 hnew.2 hfull)
    · exact forwardTo_cases hcalc .kept hrest

/-! ## Received frames -/

def frameEnds (param : ℕ) : List (List NwkOutput) :=
  [[.unsecureFailed param], [.schedule .nwkFrameIndication param],
    [.schedule .nwkForward param], [.getBufDelayed .newBufferAllocated true],
    [.freeBuf param]]

theorem updateLqi_eq (nwk : NwkMain) (srcAddr : ℕ) (lqi : UInt8) :
    ∃ zg, nwk.updateLqi srcAddr lqi = nwk.setZg zg := by
  unfold updateLqi
  split
  · exact ⟨_, rfl⟩
  · exact ⟨_, rfl⟩

structure SameTables (nwk next : NwkMain) : Prop where
  btt : next.btt = nwk.btt
  brrt : next.brrt = nwk.brrt

theorem newBufferAllocated_sameTables (nwk : NwkMain) (param : ℕ) :
    SameTables nwk (nwk.newBufferAllocated param).1 := by
  unfold newBufferAllocated
  dsimp only
  split
  · exact ⟨rfl, rfl⟩
  · exact ⟨rfl, rfl⟩

theorem dispose_spec (nwk : NwkMain) (param : ℕ) (disposed : Disposition) :
    SameTables nwk (nwk.dispose param disposed).1 ∧
      (nwk.dispose param disposed).2 ∈ frameEnds param := by
  cases disposed with
  | indicate => exact ⟨⟨rfl, rfl⟩, by simp [dispose, frameEnds]⟩
  | retransmit => exact ⟨⟨rfl, rfl⟩, by simp [dispose, frameEnds]⟩
  | indicateAndRetransmit =>
    rw [dispose]
    cases nwk.waitAlloc.freeEnt with
    | some i => exact ⟨⟨rfl, rfl⟩, by simp [frameEnds]⟩
    | none => exact ⟨⟨rfl, rfl⟩, by simp [frameEnds]⟩
  | drop => exact ⟨⟨rfl, rfl⟩, by simp [dispose, frameEnds]⟩

theorem handleFrame_spec
    {lqi : UInt8} {unsecure : Unsecure} {result : NwkMain × List NwkOutput}
    (hhandle : nwk.handleFrame param lqi unsecure = some result) :
    SameTables nwk result.1 ∧ result.2 ∈ frameEnds param := by
  obtain ⟨⟨zg, ret⟩, -, hrest⟩ := bind_eq_some_iff.mp hhandle
  cases ret with
  | error _ =>
    obtain rfl := some.inj hrest
    exact ⟨⟨rfl, rfl⟩, by simp [frameEnds]⟩
  | ok _ =>
    obtain rfl := some.inj hrest
    dsimp only
    obtain ⟨zg', hlqi⟩ :=
      updateLqi_eq ((nwk.setZg zg).setPacket param
        { nwk.packets param with radius := (nwk.packets param).radius - 1 })
        (nwk.packets param).srcAddr lqi
    rw [hlqi]
    obtain ⟨hsame, hends⟩ :=
      dispose_spec ((((nwk.setZg zg).setPacket param
        { nwk.packets param with
          radius := (nwk.packets param).radius - 1 })).setZg zg') param
        ((nwk.setZg zg).disposition
          { nwk.packets param with
            radius := (nwk.packets param).radius - 1 })
    exact ⟨⟨hsame.btt, hsame.brrt⟩, hends⟩

structure MarksPassiveAck (nwk : NwkMain) (result : NwkMain × List NwkOutput) : Prop where
  btt : result.1.btt = nwk.btt
  packets : result.1.packets = nwk.packets
  mesh : ∃ zg, result.1.mesh = { nwk.mesh with zg := zg }
  brrt : NwkArray.Evolves nwk.brrt result.1.brrt
  outputs : result.2 = [] ∨ ∃ buf, result.2 = [.schedule .nwkCallBrConfirm buf]

theorem markPassiveAck_spec {packet : NwkPacket} {result : NwkMain × List NwkOutput}
    (hmark : nwk.markPassiveAck packet = some result) :
    MarksPassiveAck nwk result := by
  unfold markPassiveAck at hmark
  dsimp only at hmark
  split at hmark
  · rename_i i macSource _ hfound _
    obtain ⟨hi, hused, -⟩ := NwkArray.findEnt_eq_some hfound
    split at hmark
    · split at hmark
      · split at hmark
        · obtain rfl := some.inj hmark
          refine ⟨rfl, rfl, ⟨_, rfl⟩, ?_, .inr ⟨_, rfl⟩⟩
          exact (NwkArray.evolves_setEnt nwk.brrt i _).trans
            (NwkArray.evolves_putEnt hi hused)
        · obtain rfl := some.inj hmark
          exact ⟨rfl, rfl, ⟨_, rfl⟩, NwkArray.evolves_setEnt nwk.brrt i _, .inl rfl⟩
      · contradiction
    · obtain rfl := some.inj hmark
      exact ⟨rfl, rfl, ⟨_, rfl⟩, .refl _, .inl rfl⟩
  · obtain rfl := some.inj hmark
    exact ⟨rfl, rfl, ⟨_, rfl⟩, .refl _, .inl rfl⟩

def receivedFrame (nwk : NwkMain) (param : ℕ) (packet : NwkPacket) : NwkMain :=
  nwk.setPacket param { packet with macHdr := false }

def BadFrame (nwk : NwkMain) (packet : NwkPacket) : Prop :=
  packet.radius = 0 ∨ packet.payload = .reserved ∨
    nwkIsAddressBroadcast packet.dstAddr = true ∧
      nwk.supportedBroadcast packet.dstAddr = false

inductive IndicationCase (nwk : NwkMain) (param : ℕ) (packet : NwkPacket) (lqi : UInt8)
    (unsecure : Unsecure) : NwkMain × List NwkOutput → Prop
  | bad (hbad : BadFrame nwk packet) : IndicationCase nwk param packet lqi unsecure
        (nwk.receivedFrame param packet, [.freeBuf param])
  | repeated {marked : NwkMain} {acked : List NwkOutput}
      (hbroadcast : nwkIsAddressBroadcast packet.dstAddr = true)
      (hmark : (nwk.receivedFrame param packet).markPassiveAck packet =
        some (marked, acked))
      (hknown : marked.findBtr packet.srcAddr packet.seqNum ≠ none) :
      IndicationCase nwk param packet lqi unsecure (marked, acked ++ [.freeBuf param])
  | full {marked : NwkMain} {acked : List NwkOutput}
      (hbroadcast : nwkIsAddressBroadcast packet.dstAddr = true)
      (hmark : (nwk.receivedFrame param packet).markPassiveAck packet =
        some (marked, acked))
      (hnew : marked.findBtr packet.srcAddr packet.seqNum = none)
      (hfull : marked.addBtr packet.srcAddr packet.seqNum = none) :
      IndicationCase nwk param packet lqi unsecure (marked, acked ++ [.freeBuf param])
  | broadcast {marked recorded next : NwkMain} {acked started outputs : List NwkOutput}
      (hbroadcast : nwkIsAddressBroadcast packet.dstAddr = true)
      (hmark : (nwk.receivedFrame param packet).markPassiveAck packet =
        some (marked, acked))
      (hnew : marked.findBtr packet.srcAddr packet.seqNum = none)
      (hadd : marked.addBtr packet.srcAddr packet.seqNum = some (recorded, started))
      (hhandle : recorded.handleFrame param lqi unsecure = some (next, outputs))
      (hgood : ¬ BadFrame nwk packet) :
      IndicationCase nwk param packet lqi unsecure (next, acked ++ started ++ outputs)
  | unicast {result : NwkMain × List NwkOutput}
      (hunicast : nwkIsAddressBroadcast packet.dstAddr = false)
      (hhandle : (nwk.receivedFrame param packet).handleFrame param lqi
        unsecure = some result) :
      IndicationCase nwk param packet lqi unsecure result

theorem zbMcpsDataIndication_cases {packet : NwkPacket} {lqi : UInt8} {unsecure : Unsecure}
    {result : NwkMain × List NwkOutput}
    (hindication : nwk.zbMcpsDataIndication param packet lqi unsecure = some result) :
    IndicationCase nwk param packet lqi unsecure result := by
  unfold zbMcpsDataIndication at hindication
  dsimp only at hindication
  split at hindication
  · rename_i hbad
    obtain rfl := some.inj hindication
    exact .bad (hbad.imp_right Or.inl)
  · rename_i hnotBad
    split at hindication
    · rename_i hbroadcast
      split at hindication
      · rename_i hsupported
        have hgood : ¬ BadFrame nwk packet := by
          rintro (hradius | hreserved | ⟨-, hunsupported⟩)
          · exact hnotBad (.inl hradius)
          · exact hnotBad (.inr hreserved)
          · have hsupported : nwk.supportedBroadcast packet.dstAddr = true :=
              hsupported
            rw [hunsupported] at hsupported
            contradiction
        obtain ⟨⟨marked, acked⟩, hmark, hrest⟩ := bind_eq_some_iff.mp hindication
        dsimp only at hrest
        split at hrest
        · rename_i hnew
          cases hadd : marked.addBtr packet.srcAddr packet.seqNum with
          | some added =>
            rw [hadd] at hrest
            obtain ⟨⟨last, outputs⟩, hhandle, hlast⟩ := bind_eq_some_iff.mp hrest
            obtain rfl := some.inj hlast
            exact .broadcast hbroadcast hmark hnew hadd hhandle hgood
          | none =>
            rw [hadd] at hrest
            obtain rfl := some.inj hrest
            exact .full hbroadcast hmark hnew hadd
        · rename_i hknown
          obtain rfl := some.inj hrest
          exact .repeated hbroadcast hmark hknown
      · rename_i hunsupported
        obtain rfl := some.inj hindication
        exact .bad (.inr (.inr ⟨hbroadcast, Bool.eq_false_of_not_eq_true hunsupported⟩))
    · rename_i hunicast
      exact .unicast (Bool.eq_false_of_not_eq_true hunicast) hindication

def EntriesRewritten (nwk next : NwkMain) : Prop :=
  ∃ ents, next = { nwk with brrt := { nwk.brrt with ents := ents } }

theorem pickUnicast_spec (nwk : NwkMain) (entries : List ℕ) :
    EntriesRewritten nwk (nwk.pickUnicast entries).1 ∧
      ∀ i n, (nwk.pickUnicast entries).2 = some (i, n) →
        i ∈ entries ∧ nwk.brrt.used i = true := by
  induction entries generalizing nwk with
  | nil =>
    refine ⟨⟨nwk.brrt.ents, rfl⟩, ?_⟩
    intro i n hpick
    contradiction
  | cons j rest ih =>
    have hskip : ∀ nwk' : NwkMain, nwk'.brrt.used = nwk.brrt.used →
        ∀ i n, (nwk'.pickUnicast rest).2 = some (i, n) →
          i ∈ j :: rest ∧ nwk.brrt.used i = true := by
      intro nwk' hused i n hpick
      obtain ⟨hmem, hlive⟩ := (ih nwk').2 i n hpick
      exact ⟨List.mem_cons_of_mem j hmem, hused ▸ hlive⟩
    rw [pickUnicast]
    dsimp only
    split
    · rename_i hused _
      split
      · obtain ⟨ents, heq⟩ := (ih { nwk with
          brrt := nwk.brrt.setEnt j
            { nwk.brrt.ents j with
              neighborTableIterator :=
                nextZeChildrenI nwk.mesh.zg (nwk.brrt.ents j).dstAddr (_ + 1) } }).1
        exact ⟨⟨ents, heq⟩, hskip _ rfl⟩
      · refine ⟨⟨nwk.brrt.ents, rfl⟩, ?_⟩
        intro i n hpick
        obtain ⟨rfl, -⟩ := some_pair_inj hpick
        exact ⟨List.mem_cons_self, hused⟩
    · exact ⟨(ih nwk).1, hskip nwk rfl⟩

theorem pickBroadcast_spec (nwk : NwkMain) : EntriesRewritten nwk nwk.pickBroadcast.1 ∧
      ∀ i child, nwk.pickBroadcast.2 = some (i, child) →
        i < nwkBrrTableSize ∧ nwk.brrt.used i = true := by
  unfold pickBroadcast
  split
  · rename_i j hfirst
    refine ⟨⟨nwk.brrt.ents, rfl⟩, ?_⟩
    intro i child hpick
    obtain ⟨rfl, -⟩ := some_pair_inj hpick
    obtain ⟨hlt, hused, -⟩ := NwkArray.findEnt_eq_some hfirst
    exact ⟨hlt, hused⟩
  · obtain ⟨hrewritten, hpicked⟩ :=
      pickUnicast_spec nwk (List.range nwkBrrTableSize)
    split
    · rename_i next j n hunicast
      rw [hunicast] at hrewritten hpicked
      refine ⟨hrewritten, ?_⟩
      intro i child hpick
      obtain ⟨rfl, -⟩ := some_pair_inj hpick
      obtain ⟨hmem, hused⟩ := hpicked j n rfl
      exact ⟨List.mem_range.mp hmem, hused⟩
    · rename_i next hunicast
      rw [hunicast] at hrewritten
      refine ⟨hrewritten, ?_⟩
      intro i child hpick
      obtain ⟨j, hdue, hj⟩ := map_eq_some_iff.mp hpick
      obtain ⟨rfl, -⟩ := Prod.mk.inj hj
      obtain ⟨hlt, hused, -⟩ := NwkArray.findEnt_eq_some hdue
      obtain ⟨ents, heq⟩ := hrewritten
      dsimp only at heq
      rw [heq] at hused
      exact ⟨hlt, hused⟩

end NwkMain

end Zboss
