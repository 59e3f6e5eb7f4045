import Zboss.BroadcastTables
import Zboss.ReversePaths
import Zboss.RunningMinimum

/-!
# The best path of a route request

The copies of a route request come over different neighbors.  The filter for
repeated broadcasts lets the first one through and drops the others while its
record lives, and the cost which is compared is that of the link to the
originator.
-/

namespace Zboss

open Function Option List NwkMain MeshRouter RunningMinimum TransitionSystem

/-! ## The recorded path -/

def MeshRouter.recordedPath (router : MeshRouter) (originator rreqId : ℕ) :
    Option (ℕ × ℕ) :=
  (router.discovery originator rreqId).map fun ent => (ent.forwardCost, ent.senderAddr)

@[mk_iff] structure MeshRouter.EntersPath
    (router : MeshRouter) (cmd : NwkCmdRreq) (originator pathCost : ℕ) :
    Prop where
  route : router.routeTo cmd.destAddr ≠ none ∨ router.freeRouting ≠ none
  discovery : router.discoveryOf cmd.rreqId originator ≠ none ∨ router.freeRouteDisc ≠ none
  better : ∀ old ∈ router.recordedPath originator cmd.rreqId, pathCost < old.1

instance (router : MeshRouter) (cmd : NwkCmdRreq) (originator pathCost : ℕ) :
    Decidable (router.EntersPath cmd originator pathCost) :=
  decidable_of_iff _ (entersPath_iff router cmd originator pathCost).symm

section Handler

variable {router : MeshRouter} {frame : MeshFrame} {cmd : NwkCmdRreq} {pathCost : ℕ}

theorem recordedPath_of_discoveryOf {rreqId sourceAddr d : ℕ}
    (hdisc : router.discoveryOf rreqId sourceAddr = some d) :
    router.recordedPath sourceAddr rreqId = some ((router.routeDiscTable d).forwardCost,
        (router.routeDiscTable d).senderAddr) := by
  rw [recordedPath, discovery, hdisc]
  rfl

theorem recordedPath_of_discoveryOf_none {rreqId sourceAddr : ℕ}
    (hdisc : router.discoveryOf rreqId sourceAddr = none) :
    router.recordedPath sourceAddr rreqId = none := by
  rw [recordedPath, discovery, hdisc]
  rfl

theorem recordedPath_setRouteDisc {rreqId sourceAddr d : ℕ} (ent : NwkRouteDiscovery)
    (hdisc : (router.setRouteDisc d ent).discoveryOf rreqId sourceAddr = some d) :
    (router.setRouteDisc d ent).recordedPath sourceAddr rreqId =
      some (ent.forwardCost, ent.senderAddr) := by
  rw [recordedPath, discovery_of_discoveryOf hdisc]
  rfl

theorem recordedPath_rreqPropagate
    (router : MeshRouter) (frame : MeshFrame) (cmd : NwkCmdRreq)
    (pathCost : ℕ) :
    (rreqPropagate router frame cmd pathCost).1.recordedPath frame.srcAddr
      cmd.rreqId = router.recordedPath frame.srcAddr cmd.rreqId := by
  obtain ⟨zg, heq⟩ := rreqPropagate_fst router frame cmd pathCost
  rw [heq]
  rfl

theorem rreqDiscovery_recordedPath_of_better (r : ℕ)
    (hdiscovery : router.discoveryOf cmd.rreqId frame.srcAddr ≠ none ∨
      router.freeRouteDisc ≠ none)
    (hbetter : ∀ old ∈ router.recordedPath frame.srcAddr cmd.rreqId, pathCost < old.1) :
    (rreqDiscovery router r frame cmd pathCost).1.recordedPath frame.srcAddr
      cmd.rreqId = some (pathCost, nwkGetMacSourceAddr router frame) := by
  unfold rreqDiscovery
  cases hdisc : router.discoveryOf cmd.rreqId frame.srcAddr with
  | some d =>
    obtain ⟨-, hused, hid, hsource⟩ := discoveryOf_eq_some hdisc
    dsimp only
    rw [if_pos (hbetter _ (recordedPath_of_discoveryOf hdisc)), recordedPath_rreqPropagate]
    refine recordedPath_setRouteDisc
      { router.routeDiscTable d with
        senderAddr := nwkGetMacSourceAddr router frame
        forwardCost := pathCost } ?_
    exact discoveryOf_setRouteDisc hdisc hused hid hsource
  | none =>
    cases hfree : router.freeRouteDisc with
    | some d =>
      obtain ⟨hlt, -⟩ := freeRouteDisc_eq_some hfree
      dsimp only
      rw [recordedPath_rreqPropagate]
      exact recordedPath_setRouteDisc _
        (discoveryOf_setRouteDisc_new hdisc hlt rfl rfl rfl)
    | none => exact (hdiscovery.elim (· hdisc) (· hfree)).elim

theorem rreqDiscovery_recordedPath_of_not_better (r : ℕ)
    (hnot : ¬ ((router.discoveryOf cmd.rreqId frame.srcAddr ≠ none ∨
        router.freeRouteDisc ≠ none) ∧
      ∀ old ∈ router.recordedPath frame.srcAddr cmd.rreqId, pathCost < old.1)) :
    (rreqDiscovery router r frame cmd pathCost).1.recordedPath frame.srcAddr
      cmd.rreqId = router.recordedPath frame.srcAddr cmd.rreqId := by
  unfold rreqDiscovery
  cases hdisc : router.discoveryOf cmd.rreqId frame.srcAddr with
  | some d =>
    dsimp only
    rw [if_neg]
    intro hless
    apply hnot
    refine ⟨.inl (by rw [hdisc]; exact some_ne_none d), ?_⟩
    intro old hold
    rw [recordedPath_of_discoveryOf hdisc] at hold
    obtain rfl := some.inj hold
    exact hless
  | none =>
    cases hfree : router.freeRouteDisc with
    | some d =>
      exfalso
      apply hnot
      refine ⟨.inr (by rw [hfree]; exact some_ne_none d), ?_⟩
      intro old hold
      rw [recordedPath_of_discoveryOf_none hdisc] at hold
      contradiction
    | none =>
      dsimp only
      rw [rreqFailed_fst]
      rfl

theorem zbNwkMeshRreqHandler_recordedPath
    (router : MeshRouter) (frame : MeshFrame) (cmd : NwkCmdRreq) :
    (router.EntersPath cmd frame.srcAddr (rreqPathCost router frame cmd) →
        (zbNwkMeshRreqHandler router frame cmd).1.recordedPath frame.srcAddr
          cmd.rreqId = some (rreqPathCost router frame cmd,
              nwkGetMacSourceAddr router frame)) ∧
      (¬ router.EntersPath cmd frame.srcAddr (rreqPathCost router frame cmd) →
        (zbNwkMeshRreqHandler router frame cmd).1.recordedPath frame.srcAddr
          cmd.rreqId = router.recordedPath frame.srcAddr cmd.rreqId) := by
  obtain ⟨zg, hcases⟩ := zbNwkMeshRreqHandler_cases router frame cmd
  obtain ⟨table, cnt, hrouted, -⟩ := rreqRouting_spec { router with zg := zg } cmd.destAddr
  rcases hcases with ⟨hnone, hhandler⟩ | ⟨r, hsome, hhandler⟩
  · obtain ⟨hroute, hfree⟩ := rreqRouting_eq_none.mp hnone
    constructor
    · intro henters
      exact (henters.route.elim (· hroute) (· hfree)).elim
    · intro _
      rw [hhandler, hrouted, rreqFailed_fst]
      rfl
  · have hroute : router.routeTo cmd.destAddr ≠ none ∨ router.freeRouting ≠ none := by
      by_contra hboth
      rw [not_or, not_not, not_not] at hboth
      have hnone : (rreqRouting { router with zg := zg } cmd.destAddr).2 =
          none := rreqRouting_eq_none.mpr hboth
      rw [hnone] at hsome
      contradiction
    constructor
    · intro henters
      rw [hhandler, hrouted]
      exact rreqDiscovery_recordedPath_of_better r henters.discovery henters.better
    · intro hnot
      rw [hhandler, hrouted]
      apply rreqDiscovery_recordedPath_of_not_better r
      intro hboth
      exact hnot ⟨hroute, hboth.1, hboth.2⟩

end Handler

structure RouteRequest where
  originator : ℕ
  rreqId : ℕ
  seqNum : ℕ

def RouteRequest.copyOf (request : RouteRequest) (packet : NwkPacket) :
    Option (NwkCmdRreq × ℕ) :=
  match packet.payload, packet.macSource with
  | .command (.routeRequest cmd), some relay =>
      if cmd.rreqId = request.rreqId ∧ packet.srcAddr = request.originator ∧
          packet.seqNum = request.seqNum ∧
          nwkIsAddressBroadcast packet.dstAddr then
        some (cmd, relay)
      else none
  | _, _ => none

def pathOffer (router : MeshRouter) (cmd : NwkCmdRreq) (relay : ℕ) : ℕ × ℕ :=
  ((nwkCalcPathCost router relay).2 + cmd.pathCost, relay)

inductive PendingCopy where
  | scheduled (param : ℕ)
  | dropped (offer : ℕ × ℕ)

structure CopyRun where
  nwk : NwkMain
  pending : List PendingCopy
  offers : List (ℕ × ℕ)

/-- A copy is received, with the outcome of its security processing, the next
one is handled, or something else happens. -/
inductive CopyEvent where
  | receive (param : ℕ) (packet : NwkPacket) (lqi : UInt8)
      (unsecured : Globals) (authentic : Bool)
  | handle
  | other (next : NwkMain)

namespace CopyRun

def outcome (unsecured : Globals) (authentic : Bool) : NwkMain.Unsecure :=
  fun _ => some (unsecured, if authentic then .ok () else .error .error)

def buffers (run : CopyRun) : List ℕ :=
  run.pending.filterMap fun
    | .scheduled param => some param
    | .dropped _ => none

/-- Whatever else happens, the discovery entry lives on, with its path, and the
scheduled copies stay in their buffers. -/
def Unrelated (request : RouteRequest) (run : CopyRun) (next : NwkMain) :
    Prop :=
  next.mesh.recordedPath request.originator request.rreqId =
      run.nwk.mesh.recordedPath request.originator request.rreqId ∧
    ∀ param ∈ run.buffers, next.packets param = run.nwk.packets param

instance (request : RouteRequest) (run : CopyRun) (next : NwkMain) :
    Decidable (Unrelated request run next) :=
  inferInstanceAs (Decidable (_ ∧ _))

/-- What is left of a copy when `zb_mcps_data_indication` is done with it. -/
def received (param : ℕ) (offer : ℕ × ℕ) (outputs : List NwkOutput) :
    PendingCopy :=
  if .schedule .nwkFrameIndication param ∈ outputs then .scheduled param
  else .dropped offer

def step (request : RouteRequest) (run : CopyRun) : CopyEvent → Option CopyRun
  | .receive param packet lqi unsecured authentic =>
      match request.copyOf packet with
      | some (cmd, relay) =>
          if param ∈ run.buffers then none
          else
            (run.nwk.zbMcpsDataIndication param packet lqi
                (outcome unsecured authentic)).map fun (nwk, outputs) =>
              { run with
                nwk := nwk
                pending :=
                  run.pending ++
                    [received param (pathOffer run.nwk.mesh cmd relay) outputs] }
      | none => none
  | .handle =>
      match run.pending with
      | .scheduled param :: rest =>
          some
            { nwk := (run.nwk.nwkFrameIndication param).1
              pending := rest
              offers :=
                ((request.copyOf (run.nwk.packets param)).map fun copy =>
                  pathOffer run.nwk.mesh copy.1 copy.2).toList ++ run.offers }
      | .dropped offer :: rest =>
          some { run with pending := rest, offers := offer :: run.offers }
      | [] => none
  | .other next =>
      if Unrelated request run next then some { run with nwk := next } else none

def start (nwk : NwkMain) : CopyRun := ⟨nwk, [], []⟩

def HasBestPath (request : RouteRequest) (run : CopyRun) : Prop :=
  BestOf run.offers (run.nwk.mesh.recordedPath request.originator request.rreqId)

structure Passes (nwk : NwkMain) (packet : NwkPacket) (authentic : Bool) : Prop where
  radius : packet.radius ≠ 0
  supported : nwk.supportedBroadcast packet.dstAddr = true
  notRecorded : nwk.findBtr packet.srcAddr packet.seqNum = none
  room : nwk.btt.freeEnt ≠ none
  authentic : packet.security = true → authentic = true

/-- The cost of the path of a copy as the handler counts it: with the link to
the originator, in eight bits. -/
def heardCost (router : MeshRouter) (cmd : NwkCmdRreq) (originator : ℕ) : ℕ :=
  ((nwkCalcPathCost router originator).2 + cmd.pathCost) % 2 ^ 8

def Undercut (request : RouteRequest) (nwk : NwkMain) (cost : ℕ) : Prop :=
  ∃ old ∈ nwk.mesh.recordedPath request.originator request.rreqId, old.1 ≤ cost

instance (request : RouteRequest) (nwk : NwkMain) (cost : ℕ) :
    Decidable (Undercut request nwk cost) :=
  inferInstanceAs (Decidable (∃ old ∈ _, _))

def Enters (request : RouteRequest) (nwk : NwkMain) (cmd : NwkCmdRreq) : Prop :=
  nwk.joinedPro = false ∧ nwk.mesh.EntersPath cmd request.originator
      (heardCost nwk.mesh cmd request.originator)

instance (request : RouteRequest) (nwk : NwkMain) (cmd : NwkCmdRreq) :
    Decidable (Enters request nwk cmd) :=
  inferInstanceAs (Decidable (_ ∧ _))

def Meets (request : RouteRequest) (run : CopyRun) : CopyEvent → Prop
  | .handle =>
      match run.pending with
      | .scheduled param :: _ =>
          ∀ copy ∈ request.copyOf (run.nwk.packets param), (Enters request run.nwk copy.1 →
                heardCost run.nwk.mesh copy.1 request.originator =
                  (pathOffer run.nwk.mesh copy.1 copy.2).1) ∧
              (¬ Enters request run.nwk copy.1 → Undercut request run.nwk
                  (pathOffer run.nwk.mesh copy.1 copy.2).1)
      | .dropped offer :: _ => Undercut request run.nwk offer.1
      | [] => True
  | _ => True

instance (request : RouteRequest) (run : CopyRun) (event : CopyEvent) :
    Decidable (Meets request run event) := by
  unfold Meets
  split
  · split <;> infer_instance
  · infer_instance

def Returns (request : RouteRequest) (run : CopyRun) (event : CopyEvent) :
    Prop :=
  ∃ next, step request run event = some next

instance (request : RouteRequest) (run : CopyRun) (event : CopyEvent) :
    Decidable (Returns request run event) :=
  decidable_of_iff _ isSome_iff_exists

/-! ## Copies behind the filter -/

section Filter

variable {request : RouteRequest} {nwk next : NwkMain} {packet : NwkPacket}
  {param relay : ℕ} {cmd : NwkCmdRreq} {outputs : List NwkOutput}
  {lqi : UInt8} {unsecured : Globals} {authentic : Bool}

theorem copyOf_eq_some : request.copyOf packet = some (cmd, relay) ↔
      packet.payload = .command (.routeRequest cmd) ∧
        packet.macSource = some relay ∧ cmd.rreqId = request.rreqId ∧
        packet.srcAddr = request.originator ∧
        packet.seqNum = request.seqNum ∧
        nwkIsAddressBroadcast packet.dstAddr = true := by
  unfold RouteRequest.copyOf
  constructor
  · intro hcopy
    split at hcopy
    · rename_i hpayload hsource
      split at hcopy
      · rename_i hrequest
        obtain ⟨rfl, rfl⟩ := some_pair_inj hcopy
        exact ⟨hpayload, hsource, hrequest⟩
      · contradiction
    · contradiction
  · rintro ⟨hpayload, hsource, hrequest⟩
    rw [hpayload, hsource]
    exact if_pos hrequest

structure KeepsPaths (param : ℕ) (nwk next : NwkMain) : Prop where
  mesh : ∃ zg, next.mesh = { nwk.mesh with zg := zg }
  packets : ∀ other, other ≠ param → next.packets other = nwk.packets other

theorem KeepsPaths.trans {last : NwkMain} (hfirst : KeepsPaths param nwk next)
    (hsecond : KeepsPaths param next last) : KeepsPaths param nwk last := by
  obtain ⟨⟨zg, hzg⟩, hpackets⟩ := hfirst
  obtain ⟨⟨zg', hzg'⟩, hpackets'⟩ := hsecond
  refine ⟨⟨zg', ?_⟩, ?_⟩
  · rw [hzg', hzg]
  · intro other hother
    rw [hpackets' other hother, hpackets other hother]

theorem KeepsPaths.recordedPath
    (hkeeps : KeepsPaths param nwk next) (originator rreqId : ℕ) :
    next.mesh.recordedPath originator rreqId =
      nwk.mesh.recordedPath originator rreqId := by
  obtain ⟨⟨zg, hzg⟩, -⟩ := hkeeps
  rw [hzg]
  rfl

theorem keepsPaths_setPacket (nwk : NwkMain) (param : ℕ) (packet : NwkPacket) :
    KeepsPaths param nwk (nwk.setPacket param packet) where
  mesh := ⟨nwk.mesh.zg, rfl⟩
  packets _ hother := update_of_ne hother ..

theorem keepsPaths_setZg (nwk : NwkMain) (param : ℕ) (zg : Globals) :
    KeepsPaths param nwk (nwk.setZg zg) where
  mesh := ⟨zg, rfl⟩
  packets _ _ := rfl

theorem disposition_copy (hcopy : request.copyOf packet = some (cmd, relay)) :
    nwk.disposition packet = .indicate := by
  obtain ⟨hpayload, -, -, -, -, hbroadcast⟩ := copyOf_eq_some.mp hcopy
  have hrelayed : NwkMain.NwkPayload.relayed packet.payload = false := by
    rw [hpayload]
    rfl
  unfold disposition
  dsimp only
  rw [hbroadcast, hrelayed]
  simp

theorem handleFrame_copy
    (hhandle : nwk.handleFrame param lqi (outcome unsecured authentic) =
      some (next, outputs))
    (hpacket : nwk.packets param = packet)
    (hcopy : request.copyOf packet = some (cmd, relay)) :
    KeepsPaths param nwk next ∧ ((packet.security = true → authentic = true) ∧
          outputs = [.schedule .nwkFrameIndication param] ∧
          request.copyOf (next.packets param) = some (cmd, relay) ∨
        ¬ (packet.security = true → authentic = true) ∧
          outputs = [.unsecureFailed param]) := by
  obtain ⟨⟨zg, ret⟩, hchecked, hrest⟩ := bind_eq_some_iff.mp hhandle
  rw [hpacket] at hchecked hrest
  have hret : ret = .ok () ↔ (packet.security = true → authentic = true) := by
    by_cases hsecurity : packet.security = true
    · rw [if_pos hsecurity] at hchecked
      obtain ⟨-, rfl⟩ := some_pair_inj hchecked
      cases authentic <;> simp [hsecurity]
    · rw [if_neg hsecurity] at hchecked
      obtain ⟨-, rfl⟩ := some_pair_inj hchecked
      simp [hsecurity]
  cases ret with
  | error _ =>
    obtain ⟨rfl, rfl⟩ := some_pair_inj hrest
    refine ⟨keepsPaths_setZg nwk param zg, .inr ⟨?_, rfl⟩⟩
    intro hauthentic
    have hok := hret.mpr hauthentic
    contradiction
  | ok _ =>
    obtain ⟨zg', hlqi⟩ :=
      updateLqi_eq ((nwk.setZg zg).setPacket param
        { packet with radius := packet.radius - 1 }) packet.srcAddr lqi
    have hcopied : request.copyOf { packet with radius := packet.radius - 1 } =
        some (cmd, relay) := hcopy
    dsimp only at hrest
    rw [hlqi, disposition_copy hcopied] at hrest
    obtain ⟨rfl, rfl⟩ := some_pair_inj hrest
    refine ⟨?_, .inl ⟨hret.mp rfl, rfl, ?_⟩⟩
    · exact ((keepsPaths_setZg nwk param zg).trans
        (keepsPaths_setPacket _ param _)).trans (keepsPaths_setZg _ param zg')
    · change request.copyOf (update nwk.packets param
        { packet with radius := packet.radius - 1 } param) = _
      rw [update_self]
      exact hcopied

theorem findBtr_congr {first second : NwkMain} (hbtt : second.btt = first.btt)
    (sourceAddr sequenceNumber : ℕ) :
    second.findBtr sourceAddr sequenceNumber =
      first.findBtr sourceAddr sequenceNumber := by
  rw [findBtr, findBtr, hbtt]

theorem addBtr_eq_none {sourceAddr sequenceNumber : ℕ} :
    nwk.addBtr sourceAddr sequenceNumber = none ↔ nwk.btt.freeEnt = none := by
  unfold addBtr
  cases nwk.btt.freeEnt with
  | some i => simp
  | none => simp

theorem zbMcpsDataIndication_copy (hcopy : request.copyOf packet = some (cmd, relay))
    (hindication : nwk.zbMcpsDataIndication param packet lqi
      (outcome unsecured authentic) = some (next, outputs)) :
    KeepsPaths param nwk next ∧ (Passes nwk packet authentic ∧
          .schedule .nwkFrameIndication param ∈ outputs ∧
          request.copyOf (next.packets param) = some (cmd, relay) ∨
        ¬ Passes nwk packet authentic ∧
          .schedule .nwkFrameIndication param ∉ outputs) := by
  have hkeeps : KeepsPaths param nwk (nwk.receivedFrame param packet) :=
    keepsPaths_setPacket nwk param _
  have hmarked : ∀ {marked : NwkMain} {acked : List NwkOutput},
      (nwk.receivedFrame param packet).markPassiveAck packet = some (marked, acked) →
      KeepsPaths param nwk marked ∧ marked.btt = nwk.btt ∧
        marked.packets param = { packet with macHdr := false } ∧
        .schedule .nwkFrameIndication param ∉ acked := by
    intro marked acked hmark
    have hspec := markPassiveAck_spec hmark
    refine ⟨hkeeps.trans ⟨hspec.mesh, ?_⟩, hspec.btt, ?_, ?_⟩
    · intro other _
      exact congrFun hspec.packets other
    · exact (congrFun hspec.packets param).trans (update_self ..)
    · rcases hspec.outputs with hnil | ⟨buf, hbuf⟩
      · dsimp only at hnil
        rw [hnil]
        exact not_mem_nil
      · dsimp only at hbuf
        rw [hbuf]
        simp
  obtain ⟨hpayload, -, -, -, -, hbroadcast⟩ := copyOf_eq_some.mp hcopy
  cases zbMcpsDataIndication_cases hindication with
  | bad hbad =>
    refine ⟨hkeeps, .inr ⟨?_, by simp⟩⟩
    intro hpasses
    rcases hbad with hradius | hreserved | ⟨-, hunsupported⟩
    · exact hpasses.radius hradius
    · rw [hpayload] at hreserved
      contradiction
    · rw [hpasses.supported] at hunsupported
      contradiction
  | repeated _ hmark hknown =>
    obtain ⟨hsame, hbtt, -, hacked⟩ := hmarked hmark
    refine ⟨hsame, .inr ⟨?_, by simpa using hacked⟩⟩
    intro hpasses
    apply hknown
    rw [findBtr_congr hbtt]
    exact hpasses.notRecorded
  | full _ hmark _ hfull =>
    obtain ⟨hsame, hbtt, -, hacked⟩ := hmarked hmark
    refine ⟨hsame, .inr ⟨?_, by simpa using hacked⟩⟩
    intro hpasses
    apply hpasses.room
    rw [← hbtt]
    exact addBtr_eq_none.mp hfull
  | broadcast _ hmark hnew hadd hhandle hgood =>
    rename_i marked recorded acked started ended _
    obtain ⟨hsame, hbtt, hpacket, hacked⟩ := hmarked hmark
    obtain ⟨hstarted, i, hfree, hrecorded⟩ := addBtr_eq_some hadd
    have hkept : KeepsPaths param marked recorded := by
      rw [hrecorded]
      exact ⟨⟨marked.mesh.zg, rfl⟩, fun _ _ => rfl⟩
    have hstart : .schedule .nwkFrameIndication param ∉ started := by
      rw [hstarted]
      rcases startBtrExpiry_spec _ with hnil | hsome
      · rw [hnil]
        exact not_mem_nil
      · rw [hsome]
        simp
    have hcopied : request.copyOf { packet with macHdr := false } =
        some (cmd, relay) := hcopy
    have hsecured : recorded.packets param = { packet with macHdr := false } := by
      rw [hrecorded]
      exact hpacket
    obtain ⟨hhandled, hends⟩ := handleFrame_copy hhandle hsecured hcopied
    refine ⟨(hsame.trans hkept).trans hhandled, ?_⟩
    rcases hends with ⟨hauthentic, rfl, hscheduled⟩ | ⟨hauthentic, rfl⟩
    · refine .inl ⟨⟨?_, ?_, ?_, ?_, hauthentic⟩, by simp, hscheduled⟩
      · intro hradius
        exact hgood (.inl hradius)
      · by_contra hunsupported
        exact hgood (.inr (.inr ⟨hbroadcast, Bool.eq_false_of_not_eq_true hunsupported⟩))
      · rw [← findBtr_congr hbtt]
        exact hnew
      · rw [← hbtt, hfree]
        exact some_ne_none i
    · refine .inr ⟨fun hpasses => hauthentic hpasses.authentic, ?_⟩
      simp only [mem_append, not_or]
      exact ⟨⟨hacked, hstart⟩, by simp⟩
  | unicast hunicast _ =>
    rw [hbroadcast] at hunicast
    contradiction

theorem nwkFrameIndication_copy
    (hcopy : request.copyOf (nwk.packets param) = some (cmd, relay)) :
    (nwk.nwkFrameIndication param).1.packets = nwk.packets ∧ (Enters request nwk cmd →
        (nwk.nwkFrameIndication param).1.mesh.recordedPath request.originator
            request.rreqId =
          some (heardCost nwk.mesh cmd request.originator, relay)) ∧
      (¬ Enters request nwk cmd →
        (nwk.nwkFrameIndication param).1.mesh.recordedPath request.originator
            request.rreqId =
          nwk.mesh.recordedPath request.originator request.rreqId) := by
  obtain ⟨hpayload, hsource, hid, horiginator, -, -⟩ := copyOf_eq_some.mp hcopy
  have hhandler := zbNwkMeshRreqHandler_recordedPath nwk.mesh
    (NwkMain.NwkPacket.meshFrame (nwk.packets param)) cmd
  have hframe : (NwkMain.NwkPacket.meshFrame (nwk.packets param)).srcAddr =
      request.originator := horiginator
  have hcost : rreqPathCost nwk.mesh
      (NwkMain.NwkPacket.meshFrame (nwk.packets param)) cmd =
        heardCost nwk.mesh cmd request.originator := by
    rw [rreqPathCost, hframe, heardCost]
  have hrelay : nwkGetMacSourceAddr nwk.mesh
      (NwkMain.NwkPacket.meshFrame (nwk.packets param)) = relay := by
    rw [nwkGetMacSourceAddr, NwkMain.NwkPacket.meshFrame, hsource]
    rfl
  rw [hframe, hcost, hrelay, hid] at hhandler
  unfold nwkFrameIndication Enters
  dsimp only
  rw [hpayload]
  cases nwk.joinedPro with
  | false =>
    refine ⟨rfl, ?_, ?_⟩
    · intro henters
      exact hhandler.1 henters.2
    · intro hnot
      exact hhandler.2 fun henters => hnot ⟨rfl, henters⟩
  | true =>
    refine ⟨rfl, ?_, fun _ => rfl⟩
    rintro ⟨hjoined, -⟩
    contradiction

end Filter

section Exactness

variable {request : RouteRequest} {run next : CopyRun} {event : CopyEvent}

def ScheduledCopies (request : RouteRequest) (run : CopyRun) : Prop :=
  ∀ param ∈ run.buffers, ∃ copy, request.copyOf (run.nwk.packets param) = some copy

theorem buffers_received
    (pending : List PendingCopy) (nwk : NwkMain) (offers : List (ℕ × ℕ))
    (param : ℕ) (offer : ℕ × ℕ) (outputs : List NwkOutput) :
    buffers ⟨nwk, pending ++ [received param offer outputs], offers⟩ =
      buffers ⟨nwk, pending, offers⟩ ++
        if .schedule .nwkFrameIndication param ∈ outputs then [param]
        else [] := by
  rw [buffers, buffers, filterMap_append, received]
  congr 1
  split <;> rfl

theorem ScheduledCopies.step (hscheduled : ScheduledCopies request run)
    (hstep : step request run event = some next) :
    ScheduledCopies request next := by
  unfold CopyRun.step at hstep
  split at hstep
  · split at hstep
    · rename_i cmd relay hcopy
      split at hstep
      · contradiction
      · rename_i param _ _ _ _ hfresh
        obtain ⟨⟨nwk, outputs⟩, hindication, rfl⟩ := map_eq_some_iff.mp hstep
        obtain ⟨hkeeps, hends⟩ := zbMcpsDataIndication_copy hcopy hindication
        intro other hother
        rw [buffers_received] at hother
        rcases mem_append.mp hother with hold | hnew
        · have hkept : nwk.packets other = run.nwk.packets other :=
            hkeeps.packets other (ne_of_mem_of_not_mem hold hfresh)
          dsimp only
          rw [hkept]
          exact hscheduled other hold
        · rcases hends with ⟨-, hmem, hcopied⟩ | ⟨-, hmem⟩
          · rw [if_pos hmem] at hnew
            rw [mem_singleton.mp hnew]
            exact ⟨_, hcopied⟩
          · rw [if_neg hmem] at hnew
            exact absurd hnew not_mem_nil
    · contradiction
  · split at hstep
    · rename_i param rest hcons
      obtain rfl := some.inj hstep
      unfold ScheduledCopies buffers at hscheduled
      rw [hcons] at hscheduled
      obtain ⟨copy, hcopy⟩ := hscheduled param mem_cons_self
      intro other hother
      dsimp only
      rw [(nwkFrameIndication_copy hcopy).1]
      exact hscheduled other (mem_cons_of_mem param hother)
    · rename_i offer rest hcons
      obtain rfl := some.inj hstep
      unfold ScheduledCopies buffers at hscheduled
      rw [hcons] at hscheduled
      exact hscheduled
    · contradiction
  · split at hstep
    · rename_i hunrelated
      obtain rfl := some.inj hstep
      intro param hparam
      dsimp only
      rw [hunrelated.2 param hparam]
      exact hscheduled param hparam
    · contradiction

theorem hasBestPath_step_iff
    (hbest : HasBestPath request run) (hscheduled : ScheduledCopies request run)
    (hstep : step request run event = some next) :
    HasBestPath request next ↔ Meets request run event := by
  unfold HasBestPath at hbest ⊢
  unfold CopyRun.step at hstep
  split at hstep
  · split at hstep
    · rename_i cmd relay hcopy
      split at hstep
      · contradiction
      · obtain ⟨⟨nwk, outputs⟩, hindication, rfl⟩ :=
          map_eq_some_iff.mp hstep
        obtain ⟨hkeeps, -⟩ := zbMcpsDataIndication_copy hcopy hindication
        dsimp only
        rw [hkeeps.recordedPath]
        exact iff_of_true hbest trivial
    · contradiction
  · split at hstep
    · rename_i param rest hcons
      obtain rfl := some.inj hstep
      have hmem : param ∈ run.buffers := by
        rw [buffers, hcons]
        exact mem_cons_self
      obtain ⟨⟨cmd, relay⟩, hcopy⟩ := hscheduled param hmem
      obtain ⟨-, henters, hkept⟩ := nwkFrameIndication_copy hcopy
      have hmeets : Meets request run .handle ↔ (Enters request run.nwk cmd →
              heardCost run.nwk.mesh cmd request.originator =
                (pathOffer run.nwk.mesh cmd relay).1) ∧
            (¬ Enters request run.nwk cmd → Undercut request run.nwk
                (pathOffer run.nwk.mesh cmd relay).1) := by
        rw [Meets, hcons]
        simp [hcopy]
      rw [hmeets, hcopy]
      dsimp only [map_some, toList_some, singleton_append]
      by_cases hin : Enters request run.nwk cmd
      · obtain ⟨-, -, hid, -⟩ := copyOf_eq_some.mp hcopy
        have hbetter := hin.2.better
        rw [hid] at hbetter
        rw [henters hin, pathOffer, hbest.replaced_iff hbetter]
        simp [hin]
      · rw [hkept hin, pathOffer, hbest.passed_iff]
        simp [hin, Undercut]
    · rename_i offer rest hcons
      obtain rfl := some.inj hstep
      have hmeets : Meets request run .handle ↔
          Undercut request run.nwk offer.1 := by
        rw [Meets, hcons]
      rw [hmeets]
      exact hbest.passed_iff
    · contradiction
  · split at hstep
    · rename_i hunrelated
      obtain rfl := some.inj hstep
      dsimp only
      rw [hunrelated.1]
      exact iff_of_true hbest trivial
    · contradiction

end Exactness

/-- In a run from the first copy of a request, the discovery entry has the best
path of all copies all the time exactly if every copy which enters its path
does so with the right cost and no other one has a better path. -/
theorem everyState_hasBestPath_iff
    {request : RouteRequest} {nwk : NwkMain} {events : List CopyEvent}
    (hnew : nwk.mesh.discovery request.originator request.rreqId = none)
    (hreturns : AlongRun (step request) (Returns request) (start nwk) events) :
    EveryState (step request) (HasBestPath request) (start nwk) events ↔
      AlongRun (step request) (Meets request) (start nwk) events := by
  have hbest : HasBestPath request (start nwk) := by
    change BestOf [] ((nwk.mesh.discovery request.originator request.rreqId).map _)
    rw [hnew]
    rfl
  have hscheduled : ScheduledCopies request (start nwk) := by
    intro param hparam
    exact absurd hparam not_mem_nil
  have hexact : EveryState (step request) (HasBestPath request) (start nwk)
      events ↔ AlongRun (step request)
        (fun run event => Returns request run event → Meets request run event)
        (start nwk) events := by
    refine everyState_iff_alongRun ?_ ?_ hbest hscheduled
    · intro run event hbest hscheduled
      constructor
      · rintro hall ⟨next, hstep⟩
        exact (hasBestPath_step_iff hbest hscheduled hstep).mp (hall next hstep)
      · intro hmeets next hstep
        exact (hasBestPath_step_iff hbest hscheduled hstep).mpr (hmeets ⟨next, hstep⟩)
    · intro run event next _ hscheduled _ hstep
      exact hscheduled.step hstep
  rw [hexact]
  constructor
  · intro hmeets
    exact (hmeets.and hreturns).mono fun _ _ hboth => hboth.1 hboth.2
  · intro hmeets
    refine AlongRun.mono ?_ hmeets
    intro _ _ hstep _
    exact hstep

def requestOfTwo : RouteRequest := ⟨2, 0, 0⟩

def copyOfTwo (relay pathCost : ℕ) : NwkPacket :=
  { broadcastingNwk.packets 0 with
    payload := .command (.routeRequest ⟨0, 9, pathCost⟩)
    dstAddr := nwkBroadcastRouterCoordinator
    srcAddr := 2
    seqNum := 0
    macSource := some relay }

/-- The better of the two copies comes first.  Without neighbors all links cost
the same. -/
theorem everyState_hasBestPath_betterFirst :
    EveryState (step requestOfTwo) (HasBestPath requestOfTwo) (start broadcastingNwk)
      [.receive 0 (copyOfTwo 3 0) 0 (.init .zero) true,
        .receive 1 (copyOfTwo 4 5) 0 (.init .zero) true, .handle, .handle] :=
  (everyState_hasBestPath_iff (by decide +kernel) (by decide +kernel)).mpr
    (by decide +kernel)

/-- The copy with the better path comes second and is dropped. -/
theorem not_everyState_hasBestPath_betterSecond :
    ¬ EveryState (step requestOfTwo) (HasBestPath requestOfTwo) (start broadcastingNwk)
      [.receive 0 (copyOfTwo 4 5) 0 (.init .zero) true, .handle,
        .receive 1 (copyOfTwo 3 0) 0 (.init .zero) true, .handle] := by
  intro hevery
  have hresult : (run (step requestOfTwo) (start broadcastingNwk)
        [.receive 0 (copyOfTwo 4 5) 0 (.init .zero) true, .handle,
          .receive 1 (copyOfTwo 3 0) 0 (.init .zero) true, .handle]).map (fun last =>
            (last.offers, last.nwk.mesh.recordedPath 2 0)) =
        some ([(7, 3), (12, 4)], some (12, 4)) := by
    decide +kernel
  obtain ⟨last, hrun, hpath⟩ := map_eq_some_iff.mp hresult
  obtain ⟨hoffers, hrecorded⟩ := Prod.mk.inj hpath
  have hbest := hevery.last hrun
  rw [HasBestPath, hoffers] at hbest
  change BestOf _ (last.nwk.mesh.recordedPath 2 0) at hbest
  rw [hrecorded] at hbest
  exact absurd (hbest.2 (7, 3) mem_cons_self) (by decide)

end CopyRun

end Zboss
