import Zboss.ActiveRoutes
import Zboss.RouteDiscoveryNetwork

/-!
# Reverse paths of a route discovery

The cost in a copy of the request is never below what its sender has recorded,
now or later, and a router records a greater cost than that of the copy.  So
recorded costs decrease along the way back, whatever copies are still under
way.
-/

namespace Zboss

open Function Option List MeshRouter PointerWalk TransitionSystem

/-! ## What a router records -/

theorem linkCost_pos (lqi : UInt8) : 0 < linkCost lqi := by
  unfold linkCost
  dsimp only
  split
  · omega
  · exact Nat.one_pos

variable {router : MeshRouter} {ent : NwkRouteDiscovery}

theorem nwkCalcPathCost_pos {srcAddr : ℕ} (hother : srcAddr ≠ router.address) :
    0 < (nwkCalcPathCost router srcAddr).2 := by
  have hstatic : 0 < nwkStaticPathCost := by decide
  unfold nwkCalcPathCost
  split
  · exact hstatic
  · split
    · exact linkCost_pos _
    · exact hstatic

theorem discoveryOf_setRouteDisc {rreqId sourceAddr d : ℕ}
    (hdisc : router.discoveryOf rreqId sourceAddr = some d)
    (hused : ent.used = true) (hid : ent.requestId = rreqId)
    (hsource : ent.sourceAddr = sourceAddr) :
    (router.setRouteDisc d ent).discoveryOf rreqId sourceAddr = some d := by
  obtain ⟨hlt, -, -, -⟩ := discoveryOf_eq_some hdisc
  unfold discoveryOf findRouteDisc nwkArrayFindEnt at hdisc ⊢
  rw [List.find?_range_eq_some] at hdisc ⊢
  obtain ⟨-, hmem, hbefore⟩ := hdisc
  refine ⟨?_, hmem, ?_⟩
  · simp [setRouteDisc, hused, hid, hsource]
  · intro j hj
    have hne : j ≠ d := Nat.ne_of_lt hj
    simpa [setRouteDisc, hne] using hbefore j hj

theorem discoveryOf_setRouteDisc_new {rreqId sourceAddr d : ℕ}
    (hdisc : router.discoveryOf rreqId sourceAddr = none)
    (hd : d < nwkRouteDiscoveryTableSize) (hused : ent.used = true)
    (hid : ent.requestId = rreqId) (hsource : ent.sourceAddr = sourceAddr) :
    (router.setRouteDisc d ent).discoveryOf rreqId sourceAddr = some d := by
  unfold discoveryOf findRouteDisc nwkArrayFindEnt at hdisc ⊢
  rw [List.find?_range_eq_none] at hdisc
  rw [List.find?_range_eq_some]
  refine ⟨?_, mem_range.mpr hd, ?_⟩
  · simp [setRouteDisc, hused, hid, hsource]
  · intro j hj
    have hne : j ≠ d := Nat.ne_of_lt hj
    simpa [setRouteDisc, hne] using hdisc j (hj.trans hd)

theorem discovery_of_discoveryOf {rreqId sourceAddr d : ℕ}
    (hdisc : (router.setRouteDisc d ent).discoveryOf rreqId sourceAddr = some d) :
    (router.setRouteDisc d ent).discovery sourceAddr rreqId = some ent := by
  rw [discovery, hdisc]
  change some (update router.routeDiscTable d ent d) = some ent
  rw [update_self]

structure RelaysRequest (sender : ℕ) (frame : MeshFrame) (cmd : NwkCmdRreq) (pathCost : ℕ)
    (rreq : SentRreq) : Prop where
  sender : rreq.sender = sender
  srcAddr : rreq.srcAddr = frame.srcAddr
  rreqId : rreq.cmd.rreqId = cmd.rreqId
  pathCost : rreq.cmd.pathCost = pathCost

theorem relays_rreqPropagate
    (sender : ℕ) (router : MeshRouter) (frame : MeshFrame) (cmd : NwkCmdRreq)
    (pathCost : ℕ) :
    ∀ rreq ∈ sentRreqs sender (rreqPropagate router frame cmd pathCost).2,
      RelaysRequest sender frame cmd pathCost rreq := by
  intro rreq hrreq
  unfold rreqPropagate at hrreq
  dsimp only at hrreq
  split at hrreq
  · exact absurd hrreq not_mem_nil
  · split at hrreq
    · exact absurd hrreq not_mem_nil
    · obtain rfl := mem_singleton.mp hrreq
      exact ⟨rfl, rfl, rfl, rfl⟩

theorem sentRreqs_rreqFailed (sender : ℕ) (router : MeshRouter) (cmd : NwkCmdRreq)
    (discEnt routingEnt : Option ℕ) :
    sentRreqs sender (rreqFailed router cmd discEnt routingEnt).2 = [] := by
  unfold rreqFailed
  dsimp only
  split
  · rfl
  · rfl

inductive RecordsRequest
    (sender : ℕ) (router : MeshRouter) (frame : MeshFrame) (cmd : NwkCmdRreq)
    (pathCost : ℕ) (result : MeshRouter × List MeshOutput) : Prop
  | kept (hsame : result.1.discovery frame.srcAddr cmd.rreqId =
        router.discovery frame.srcAddr cmd.rreqId)
      (hsent : sentRreqs sender result.2 = [])
  | entered (ent : NwkRouteDiscovery)
      (hent : result.1.discovery frame.srcAddr cmd.rreqId = some ent)
      (hsender : ent.senderAddr = nwkGetMacSourceAddr router frame)
      (hcost : ent.forwardCost = pathCost)
      (hless : ∀ old, router.discovery frame.srcAddr cmd.rreqId = some old →
        pathCost < old.forwardCost)
      (hsent : ∀ rreq ∈ sentRreqs sender result.2,
        RelaysRequest sender frame cmd pathCost rreq)

theorem rreqDiscovery_records
    (sender : ℕ) (router : MeshRouter) (r : ℕ) (frame : MeshFrame)
    (cmd : NwkCmdRreq) (pathCost : ℕ) :
    RecordsRequest sender router frame cmd pathCost
      (rreqDiscovery router r frame cmd pathCost) := by
  have hpropagate : ∀ router' : MeshRouter,
      (rreqPropagate router' frame cmd pathCost).1.discovery frame.srcAddr
        cmd.rreqId = router'.discovery frame.srcAddr cmd.rreqId := by
    intro router'
    obtain ⟨zg, heq⟩ := rreqPropagate_fst router' frame cmd pathCost
    rw [heq]
    rfl
  unfold rreqDiscovery
  cases hdisc : router.discoveryOf cmd.rreqId frame.srcAddr with
  | some d =>
    have hold : router.discovery frame.srcAddr cmd.rreqId =
        some (router.routeDiscTable d) := by
      rw [discovery, hdisc]
      rfl
    obtain ⟨-, hused, hid, hsource⟩ := discoveryOf_eq_some hdisc
    dsimp only
    split
    · rename_i hless
      refine .entered
        { router.routeDiscTable d with
          senderAddr := nwkGetMacSourceAddr router frame
          forwardCost := pathCost } ?_ rfl rfl ?_
        (relays_rreqPropagate sender _ frame cmd pathCost)
      · refine (hpropagate _).trans (discovery_of_discoveryOf ?_)
        exact discoveryOf_setRouteDisc hdisc hused hid hsource
      · intro old hrecorded
        obtain rfl := some.inj (hold.symm.trans hrecorded)
        exact hless
    · exact .kept rfl rfl
  | none =>
    have hold : router.discovery frame.srcAddr cmd.rreqId = none := by
      rw [discovery, hdisc]
      rfl
    cases hfree : router.freeRouteDisc with
    | some d =>
      obtain ⟨hlt, -⟩ := freeRouteDisc_eq_some hfree
      refine .entered
        { used := true
          requestId := cmd.rreqId
          sourceAddr := frame.srcAddr
          senderAddr := nwkGetMacSourceAddr router frame
          destAddr := cmd.destAddr
          forwardCost := pathCost
          residualCost := 0xFF
          expirationTime := nwkRouteDiscoveryExpiry } ?_ rfl rfl ?_
        (relays_rreqPropagate sender _ frame cmd pathCost)
      · refine (hpropagate _).trans ?_
        exact discovery_of_discoveryOf (discoveryOf_setRouteDisc_new hdisc hlt rfl rfl rfl)
      · intro old hrecorded
        rw [hold] at hrecorded
        contradiction
    | none =>
      refine .kept ?_ (sentRreqs_rreqFailed sender router cmd none (some r))
      dsimp only
      rw [rreqFailed_fst]
      rfl

theorem RecordsRequest.congr
    {sender pathCost : ℕ} {router router' : MeshRouter} {frame : MeshFrame}
    {cmd : NwkCmdRreq} {result : MeshRouter × List MeshOutput}
    (hrecords : RecordsRequest sender router' frame cmd pathCost result)
    (hdisc : router'.routeDiscTable = router.routeDiscTable)
    (haddress : router'.address = router.address) :
    RecordsRequest sender router frame cmd pathCost result := by
  have hsame : router'.discovery frame.srcAddr cmd.rreqId =
      router.discovery frame.srcAddr cmd.rreqId := by
    unfold discovery discoveryOf findRouteDisc
    rw [hdisc]
  have hsource : nwkGetMacSourceAddr router' frame =
      nwkGetMacSourceAddr router frame := by
    rw [nwkGetMacSourceAddr, haddress]
    rfl
  cases hrecords with
  | kept hkept hsent => exact .kept (hkept.trans hsame) hsent
  | entered ent hent hsender hcost hless hsent =>
    exact .entered ent hent (hsender.trans hsource) hcost
      (fun old hold => hless old (hsame.trans hold)) hsent

theorem zbNwkMeshRreqHandler_records (sender : ℕ) (router : MeshRouter) (frame : MeshFrame)
    (cmd : NwkCmdRreq) :
    RecordsRequest sender router frame cmd (rreqPathCost router frame cmd)
      (zbNwkMeshRreqHandler router frame cmd) := by
  obtain ⟨zg, hcases⟩ := zbNwkMeshRreqHandler_cases router frame cmd
  obtain ⟨table, cnt, hrouted, -⟩ := rreqRouting_spec { router with zg := zg } cmd.destAddr
  rcases hcases with ⟨-, hhandler⟩ | ⟨r, -, hhandler⟩
  · rw [hhandler, hrouted]
    refine .kept ?_ (sentRreqs_rreqFailed sender _ cmd none none)
    rw [rreqFailed_fst]
    rfl
  · rw [hhandler]
    refine (rreqDiscovery_records sender _ r frame cmd _).congr ?_ ?_
    · rw [hrouted]
    · rw [hrouted]

/-! ## The invariant -/

structure CostsDescend (net : MeshNetwork) (originator rreqId : ℕ) : Prop where
  address : ∀ v, (net.routers v).address = v
  sent : ∀ rreq ∈ net.sent, rreq.srcAddr = originator ∧ rreq.cmd.rreqId = rreqId ∧
      ∃ ent, net.discovery originator rreqId rreq.sender = some ent ∧
        ent.forwardCost ≤ rreq.cmd.pathCost
  least : ∀ v ent, net.discovery originator rreqId v = some ent →
    ∃ first, net.discovery originator rreqId originator = some first ∧
      first.forwardCost ≤ ent.forwardCost
  descends : ∀ v ent, v ≠ originator → net.discovery originator rreqId v = some ent →
      ∃ next, net.discovery originator rreqId ent.senderAddr = some next ∧
        next.forwardCost < ent.forwardCost
  bounded : ∀ v ent, net.discovery originator rreqId v = some ent → ent.forwardCost < 2 ^ 8

section Steps

variable {net : MeshNetwork} {originator rreqId : ℕ}

variable {net' : MeshNetwork}

section

variable (hdescend : CostsDescend net originator rreqId)

include hdescend

theorem CostsDescend.congr
    (haddress : ∀ v, (net'.routers v).address = (net.routers v).address)
    (hdisc : ∀ v, net'.discovery originator rreqId v = net.discovery originator rreqId v)
    (hsent : net'.sent = net.sent) :
    CostsDescend net' originator rreqId := by
  constructor
  · intro v
    rw [haddress, hdescend.address]
  · intro rreq hrreq
    rw [hsent] at hrreq
    rw [hdisc]
    exact hdescend.sent rreq hrreq
  · intro v ent hent
    rw [hdisc] at hent ⊢
    exact hdescend.least v ent hent
  · intro v ent hne hent
    rw [hdisc] at hent ⊢
    exact hdescend.descends v ent hne hent
  · intro v ent hent
    rw [hdisc] at hent
    exact hdescend.bounded v ent hent

theorem CostsDescend.enter {v : ℕ} {entered : NwkRouteDiscovery}
    (haddress : ∀ w, (net'.routers w).address = (net.routers w).address)
    (hentered : net'.discovery originator rreqId v = some entered)
    (hothers : ∀ w, w ≠ v → net'.discovery originator rreqId w =
      net.discovery originator rreqId w)
    (hless : ∀ old, net.discovery originator rreqId v = some old →
      entered.forwardCost < old.forwardCost)
    (hbound : entered.forwardCost < 2 ^ 8)
    (hsource : v ≠ originator →
      ∃ ent, net.discovery originator rreqId entered.senderAddr = some ent ∧
        ent.forwardCost < entered.forwardCost)
    (hsent : ∀ rreq ∈ net'.sent, rreq ∈ net.sent ∨
      rreq.srcAddr = originator ∧ rreq.cmd.rreqId = rreqId ∧
        rreq.sender = v ∧ rreq.cmd.pathCost = entered.forwardCost) :
    CostsDescend net' originator rreqId := by
  -- what is recorded elsewhere stays, and here it becomes smaller
  have hsmaller : ∀ w ent, net.discovery originator rreqId w = some ent →
      ∃ ent', net'.discovery originator rreqId w = some ent' ∧
        ent'.forwardCost ≤ ent.forwardCost := by
    intro w ent hent
    by_cases hw : w = v
    · subst hw
      exact ⟨entered, hentered, (hless ent hent).le⟩
    · exact ⟨ent, (hothers w hw).trans hent, Nat.le_refl _⟩
  constructor
  · intro w
    rw [haddress, hdescend.address]
  · intro rreq hrreq
    rcases hsent rreq hrreq with hold | ⟨hsrc, hid, hsender, hcost⟩
    · obtain ⟨hsrc, hid, ent, hent, hle⟩ := hdescend.sent rreq hold
      obtain ⟨ent', hent', hle'⟩ := hsmaller _ ent hent
      exact ⟨hsrc, hid, ent', hent', hle'.trans hle⟩
    · rw [hsender, hcost]
      exact ⟨hsrc, hid, entered, hentered, Nat.le_refl _⟩
  · intro w ent hent
    by_cases hw : w = v
    · subst hw
      obtain rfl := some.inj (hentered.symm.trans hent)
      by_cases hself : w = originator
      · subst hself
        exact ⟨entered, hentered, Nat.le_refl _⟩
      · obtain ⟨source, hsrc, hlt⟩ := hsource hself
        obtain ⟨first, hfirst, hle⟩ := hdescend.least _ source hsrc
        obtain ⟨first', hfirst', hle'⟩ := hsmaller _ first hfirst
        exact ⟨first', hfirst', by omega⟩
    · rw [hothers w hw] at hent
      obtain ⟨first, hfirst, hle⟩ := hdescend.least w ent hent
      obtain ⟨first', hfirst', hle'⟩ := hsmaller _ first hfirst
      exact ⟨first', hfirst', hle'.trans hle⟩
  · intro w ent hne hent
    by_cases hw : w = v
    · subst hw
      obtain rfl := some.inj (hentered.symm.trans hent)
      obtain ⟨source, hsrc, hlt⟩ := hsource hne
      obtain ⟨next, hnext, hle⟩ := hsmaller _ source hsrc
      exact ⟨next, hnext, Nat.lt_of_le_of_lt hle hlt⟩
    · rw [hothers w hw] at hent
      obtain ⟨next, hnext, hlt⟩ := hdescend.descends w ent hne hent
      obtain ⟨next', hnext', hle⟩ := hsmaller _ next hnext
      exact ⟨next', hnext', Nat.lt_of_le_of_lt hle hlt⟩
  · intro w ent hent
    by_cases hw : w = v
    · subst hw
      obtain rfl := some.inj (hentered.symm.trans hent)
      exact hbound
    · rw [hothers w hw] at hent
      exact hdescend.bounded w ent hent

theorem CostsDescend.handled {v pathCost : ℕ} {frame : MeshFrame} {cmd : NwkCmdRreq}
    {result : MeshRouter × List MeshOutput}
    (hrecords : RecordsRequest v (net.routers v) frame cmd pathCost result)
    (haddress : result.1.address = (net.routers v).address)
    (hsrc : frame.srcAddr = originator) (hid : cmd.rreqId = rreqId)
    (hbound : pathCost < 2 ^ 8)
    (hsource : v ≠ originator → ∃ ent, net.discovery originator rreqId
          (nwkGetMacSourceAddr (net.routers v) frame) = some ent ∧
        ent.forwardCost < pathCost) :
    CostsDescend (net.handled v result) originator rreqId := by
  subst hsrc
  subst hid
  have haddresses : ∀ w, ((net.handled v result).routers w).address =
      (net.routers w).address := by
    intro w
    by_cases hw : w = v
    · subst hw
      rw [net.handled_routers_self, haddress]
    · rw [net.handled_routers_of_ne hw]
  have hself : (net.handled v result).discovery frame.srcAddr cmd.rreqId v =
      result.1.discovery frame.srcAddr cmd.rreqId := by
    rw [MeshNetwork.discovery, net.handled_routers_self]
  have hothers : ∀ w, w ≠ v → (net.handled v result).discovery frame.srcAddr cmd.rreqId w =
        net.discovery frame.srcAddr cmd.rreqId w := by
    intro w hw
    rw [MeshNetwork.discovery, net.handled_routers_of_ne hw]
    rfl
  cases hrecords with
  | kept hsame hsent =>
    apply hdescend.congr haddresses
    · intro w
      by_cases hw : w = v
      · subst hw
        exact hself.trans hsame
      · exact hothers w hw
    · rw [MeshNetwork.handled, hsent, append_nil]
  | entered ent hent hsender hcost hless hsent =>
    apply hdescend.enter haddresses (hself.trans hent) hothers
    · intro old hold
      rw [hcost]
      exact hless old hold
    · rwa [hcost]
    · rwa [hsender, hcost]
    · intro rreq hrreq
      rcases mem_append.mp hrreq with hold | hnew
      · exact Or.inl hold
      · have hrelays := hsent rreq hnew
        exact Or.inr ⟨hrelays.srcAddr, hrelays.rreqId, hrelays.sender,
          hrelays.pathCost.trans hcost.symm⟩

theorem CostsDescend.apply {event : MeshEvent} (hfits : event.CostFits net)
    (happly : event.apply originator rreqId net = some net') :
    CostsDescend net' originator rreqId := by
  cases event with
  | originate macSource destAddr radius =>
    rw [MeshEvent.apply] at happly
    split at happly
    · rename_i hid
      obtain rfl := some.inj happly
      have hrecords := zbNwkMeshRreqHandler_records originator
        { net.routers originator with rreqId := rreqId }
        { macSource := macSource
          srcAddr := (net.routers originator).address
          seqNum := 0
          radius :=
            if radius ≠ 0 then radius
            else (net.routers originator).maxDepth * 2 % 2 ^ 8 }
        { rreqId := rreqId, destAddr := destAddr, pathCost := 0 }
      have hresult : RecordsRequest originator (net.routers originator) _
        _ _ _ := hrecords.congr rfl rfl
      rw [zbNwkMeshRouteDiscovery, hid]
      refine hdescend.handled hresult ?_ (hdescend.address originator) rfl
        (Nat.mod_lt _ (by decide)) fun hne => absurd rfl hne
      exact (keepsOwn_zbNwkMeshRreqHandler _ _ _).address
    · contradiction
  | deliver copy receiver seqNum radius =>
    obtain ⟨rreq, hcopy, hhandled⟩ := bind_eq_some_iff.mp happly
    obtain rfl := some.inj hhandled
    obtain ⟨hsrc, hid, ent, hent, hle⟩ := hdescend.sent rreq (mem_of_getElem? hcopy)
    have hsum := hfits rreq hcopy
    refine hdescend.handled
      (zbNwkMeshRreqHandler_records receiver (net.routers receiver) _ _)
      (keepsOwn_zbNwkMeshRreqHandler _ _ _).address hsrc hid
      (Nat.mod_lt _ (by decide)) ?_
    intro hne
    have hpos : 0 < (nwkCalcPathCost (net.routers receiver) rreq.srcAddr).2 := by
      apply nwkCalcPathCost_pos
      rw [hsrc, hdescend.address receiver]
      exact hne.symm
    refine ⟨ent, hent, ?_⟩
    change _ < ((nwkCalcPathCost (net.routers receiver) rreq.srcAddr).2 +
      rreq.cmd.pathCost) % 2 ^ 8
    rw [Nat.mod_eq_of_lt hsum]
    omega
  | changeNeighbors v zg reportConstantCost =>
    obtain rfl := some.inj happly
    apply hdescend.congr
    · intro w
      by_cases hw : w = v
      · subst hw
        dsimp only
        rw [update_self]
      · dsimp only
        rw [update_of_ne hw]
    · intro w
      by_cases hw : w = v
      · subst hw
        rw [MeshNetwork.discovery]
        dsimp only
        rw [update_self]
        rfl
      · rw [MeshNetwork.discovery]
        dsimp only
        rw [update_of_ne hw]
        rfl
    · rfl

end

end Steps

/-! ## The way back -/

section Paths

variable {net : MeshNetwork} {originator rreqId : ℕ}

theorem reversePath_eq_some
    {v w : ℕ} (hpath : net.reversePath originator rreqId v = some w) :
    v ≠ originator ∧ ∃ ent, net.discovery originator rreqId v = some ent ∧
      ent.senderAddr = w := by
  rw [MeshNetwork.reversePath] at hpath
  split at hpath
  · contradiction
  · rename_i hne
    exact ⟨hne, map_eq_some_iff.mp hpath⟩

def recordedCost (net : MeshNetwork) (originator rreqId v : ℕ) : ℕ :=
  ((net.discovery originator rreqId v).map NwkRouteDiscovery.forwardCost).getD 0

variable {v : ℕ}

theorem recordedCost_eq {ent : NwkRouteDiscovery}
    (hent : net.discovery originator rreqId v = some ent) :
    recordedCost net originator rreqId v = ent.forwardCost := by
  rw [recordedCost, hent]
  rfl

theorem CostsDescend.recordedCost_lt
    (hdescend : CostsDescend net originator rreqId) {v w : ℕ}
    (hpath : net.reversePath originator rreqId v = some w) :
    recordedCost net originator rreqId w <
      recordedCost net originator rreqId v := by
  obtain ⟨hne, ent, hent, rfl⟩ := reversePath_eq_some hpath
  obtain ⟨next, hnext, hlt⟩ := hdescend.descends v ent hne hent
  rwa [recordedCost_eq hent, recordedCost_eq hnext]

theorem sendRrep_not_mem_rrepArrived
    (router : MeshRouter) (destAddr : ℕ) (reply : NwkCmdRrep)
    (target radius : ℕ) :
    .sendRrep reply target radius ∉ (rrepArrived router destAddr).2 := by
  have hpending : ∀ (indices : List ℕ) (router : MeshRouter),
      .sendRrep reply target radius ∉ (sendPending destAddr router indices).2 := by
    intro indices
    induction indices with
    | nil =>
      intro router
      exact not_mem_nil
    | cons i rest ih =>
      intro router
      rw [sendPending]
      dsimp only
      split
      · intro hmem
        rcases mem_cons.mp hmem with hhead | hrest
        · contradiction
        · exact ih _ hrest
      · exact ih router
  intro hmem
  rw [rrepArrived] at hmem
  dsimp only at hmem
  split at hmem
  · rcases mem_append.mp hmem with hloop | hend
    · exact hpending _ _ hloop
    · simp at hend
  · rcases mem_append.mp hmem with hloop | hend
    · exact hpending _ _ hloop
    · simp at hend

theorem rrepPropagate_sends {router : MeshRouter} {cmd reply : NwkCmdRrep}
    {pathCost senderAddr destAddr target radius : ℕ}
    (hsends : .sendRrep reply target radius ∈
      (rrepPropagate router cmd pathCost senderAddr destAddr).2) :
    cmd.originator ≠ router.address ∧ senderAddr = target := by
  unfold rrepPropagate at hsends
  split at hsends
  · exact absurd hsends (sendRrep_not_mem_rrepArrived _ _ _ _ _)
  · rename_i hother
    have hsame := mem_singleton.mp hsends
    exact ⟨hother, (MeshOutput.sendRrep.inj hsame).2.1.symm⟩

theorem zbNwkMeshRrepHandler_sends
    {router : MeshRouter} {frame : MeshFrame} {cmd reply : NwkCmdRrep}
    {target radius : ℕ}
    (hsends : .sendRrep reply target radius ∈ (zbNwkMeshRrepHandler router frame cmd).2) :
    cmd.originator ≠ router.address ∧
      ∃ ent, router.discovery cmd.originator cmd.rreqId = some ent ∧
        ent.senderAddr = target := by
  obtain ⟨zg, hcost⟩ := nwkCalcPathCost_fst router frame.srcAddr
  unfold zbNwkMeshRrepHandler at hsends
  dsimp only at hsends
  rw [hcost] at hsends
  split at hsends
  · rename_i d r hdisc hroute
    split at hsends
    · simp at hsends
    · obtain ⟨hother, hsender⟩ := rrepPropagate_sends hsends
      refine ⟨hother, router.routeDiscTable d, ?_, hsender⟩
      change router.discoveryOf cmd.rreqId cmd.originator = some d at hdisc
      rw [discovery, hdisc]
      rfl
  · simp at hsends

theorem CostsDescend.reversePathsSound (hdescend : CostsDescend net originator rreqId) :
    net.ReversePathsSound originator rreqId := by
  constructor
  · exact acyclic_of_decreasing (recordedCost net originator rreqId)
      fun v w hpath => hdescend.recordedCost_lt hpath
  · intro v hv
    obtain ⟨ent, hent⟩ := ne_none_iff_exists'.mp hv
    have hstep : ∀ w, (∃ ent, net.discovery originator rreqId w = some ent) →
        w ≠ originator →
        ∃ x, net.reversePath originator rreqId w = some x ∧
          (∃ ent, net.discovery originator rreqId x = some ent) ∧
          recordedCost net originator rreqId x <
            recordedCost net originator rreqId w := by
      rintro w ⟨ent, hent⟩ hne
      obtain ⟨next, hnext, -⟩ := hdescend.descends w ent hne hent
      have hpath : net.reversePath originator rreqId w =
          some ent.senderAddr := by
        rw [MeshNetwork.reversePath, if_neg hne, MeshNetwork.recordedSender, hent]
        rfl
      exact ⟨ent.senderAddr, hpath, ⟨next, hnext⟩, hdescend.recordedCost_lt hpath⟩
    refine (arrives_of_decreasing _ _ hstep ⟨ent, hent⟩).mono ?_
    rw [recordedCost_eq hent]
    exact Nat.le_of_lt_succ (hdescend.bounded v ent hent)
  · intro v frame cmd reply target radius horiginator hid hsends
    obtain ⟨hother, ent, hent, hsender⟩ := zbNwkMeshRrepHandler_sends hsends
    rw [horiginator, hid] at hent
    rw [horiginator, hdescend.address v] at hother
    rw [MeshNetwork.reversePath, if_neg hother.symm, MeshNetwork.recordedSender]
    exact map_eq_some_iff.mpr ⟨ent, hent, hsender⟩

end Paths

/-- Whatever copies of a new route request arrive where and when, the ways
back end at the originator. -/
theorem reversePathsSound_of_run
    (originator rreqId : ℕ) (net : MeshNetwork) (events : List MeshEvent)
    (haddress : ∀ v, (net.routers v).address = v)
    (hnew : ∀ v, net.discovery originator rreqId v = none)
    (hsent : net.sent = [])
    (hfits : AlongRun (MeshEvent.apply originator rreqId)
      (fun net event => event.CostFits net) net events) :
    EveryState (MeshEvent.apply originator rreqId)
      (fun net => net.ReversePathsSound originator rreqId) net events := by
  refine @everyState_of_invariant _ _ _ _
    (fun net => CostsDescend net originator rreqId) _ ?_ ?_ _ _ ?_ hfits
  · intro net event net' hdescend hfits happly
    exact hdescend.apply hfits happly
  · intro net hdescend
    exact hdescend.reversePathsSound
  · have habsent : ∀ v ent, net.discovery originator rreqId v ≠ some ent := by
      intro v ent hent
      rw [hnew v] at hent
      contradiction
    constructor
    · exact haddress
    · intro rreq hrreq
      rw [hsent] at hrreq
      exact absurd hrreq not_mem_nil
    · intro v ent hent
      exact absurd hent (habsent v ent)
    · intro v ent _ hent
      exact absurd hent (habsent v ent)
    · intro v ent hent
      exact absurd hent (habsent v ent)

def emptyMesh : MeshNetwork where
  routers v :=
    { zg := .init .zero
      address := v
      maxDepth := 5
      reportConstantCost := false
      routingTable _ :=
        { used := false, status := .active, destAddr := 0, nextHopAddr := 0 }
      routingTableCnt := 0
      routeDiscTable _ :=
        { used := false
          requestId := 0
          sourceAddr := 0
          senderAddr := 0
          destAddr := 0
          forwardCost := 0
          residualCost := 0
          expirationTime := 0 }
      routeDiscTableCnt := 0
      pendingTable _ := { used := false, buf := 0, handle := 0, destAddr := 0 }
      pendingTableCnt := 0
      rreqId := 0
      apsRreqAddr := 0xFFFF
      statusIndAddr := 0 }
  sent := []

def discoveryOfNine : List MeshEvent :=
  [.originate none 9 10, .deliver 0 2 0 9, .deliver 1 3 0 8, .deliver 2 4 0 7,
    .deliver 1 4 0 8, .deliver 3 3 0 6, .deliver 4 1 0 7, .deliver 3 2 0 6]

theorem reversePathsSound_of_run_discoveryOfNine : EveryState (MeshEvent.apply 1 1)
      (fun net => net.ReversePathsSound 1 1) emptyMesh discoveryOfNine :=
  reversePathsSound_of_run 1 1 emptyMesh discoveryOfNine (fun _ => rfl)
    (fun _ => rfl) rfl (by decide +kernel)

/-- The originator records itself. -/
theorem not_acyclic_recordedSender :
    AlongRun (MeshEvent.apply 1 1) (fun net event => event.CostFits net)
        emptyMesh [.originate none 9 10] ∧
      ¬ EveryState (MeshEvent.apply 1 1)
        (fun net => Acyclic (net.recordedSender 1 1)) emptyMesh
        [.originate none 9 10] := by
  refine ⟨by decide +kernel, ?_⟩
  intro hevery
  have hresult : (run (MeshEvent.apply 1 1) emptyMesh [.originate none 9 10]).map
          (fun net => net.recordedSender 1 1 1) =
        some (some 1) := by
    decide +kernel
  obtain ⟨net, hrun, hself⟩ := map_eq_some_iff.mp hresult
  exact (hevery.last hrun) 0 1 (walk_succ hself 0)

end Zboss
