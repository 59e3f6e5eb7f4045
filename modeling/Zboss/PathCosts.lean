import Zboss.ActiveRoutes

/-!
# Path costs which wrap around

A router adds the cost of the last link to the cost which a request or a reply
carries, in a byte.  Where the sum does not fit, a path of high cost becomes
the cheapest one.
-/

namespace Zboss

open Function Option List

def MeshOutput.pathCost : MeshOutput → Option ℕ
  | .sendRreq cmd _ _ _ => some cmd.pathCost
  | .sendRrep cmd _ _ => some cmd.pathCost
  | _ => none

def rrepPathCost (router : MeshRouter) (frame : MeshFrame) (cmd : NwkCmdRrep) : ℕ :=
  ((nwkCalcPathCost router frame.srcAddr).2 + cmd.pathCost) % 2 ^ 8

structure CostsAtLeast (carried : ℕ) (before : MeshRouter)
    (result : MeshRouter × List MeshOutput) : Prop where
  sent : ∀ output ∈ result.2, ∀ cost, output.pathCost = some cost → carried ≤ cost
  forward : ∀ d, (result.1.routeDiscTable d).forwardCost =
      (before.routeDiscTable d).forwardCost ∨
    carried ≤ (result.1.routeDiscTable d).forwardCost
  residual : ∀ d, (result.1.routeDiscTable d).residualCost =
      (before.routeDiscTable d).residualCost ∨
    carried ≤ (result.1.routeDiscTable d).residualCost

/-- A request counts for no less than the cost which it carries, and leaves a
discovery alone which is as cheap. -/
structure RreqAccumulates
    (router : MeshRouter) (frame : MeshFrame) (cmd : NwkCmdRreq) : Prop where
  total : cmd.pathCost ≤ rreqPathCost router frame cmd
  costs : CostsAtLeast cmd.pathCost router (zbNwkMeshRreqHandler router frame cmd)
  kept : ∀ d, router.discoveryOf cmd.rreqId frame.srcAddr = some d →
    (router.routeDiscTable d).forwardCost ≤ cmd.pathCost →
    (zbNwkMeshRreqHandler router frame cmd).1.routeDiscTable = router.routeDiscTable

/-- A reply counts for no less than the cost which it carries, and leaves a
route alone for which a cheaper reply has come. -/
structure RrepAccumulates
    (router : MeshRouter) (frame : MeshFrame) (cmd : NwkCmdRrep) : Prop where
  total : cmd.pathCost ≤ rrepPathCost router frame cmd
  costs : CostsAtLeast cmd.pathCost router (zbNwkMeshRrepHandler router frame cmd)
  kept : ∀ d r, router.discoveryOf cmd.rreqId cmd.originator = some d →
    router.routeTo cmd.responder = some r →
    (router.routeDiscTable d).residualCost < cmd.pathCost →
    (zbNwkMeshRrepHandler router frame cmd).1.routeDiscTable = router.routeDiscTable ∧
      (zbNwkMeshRrepHandler router frame cmd).1.routingTable = router.routingTable

theorem linkCost_le (lqi : UInt8) : linkCost lqi ≤ 7 := by
  unfold linkCost
  dsimp only
  split <;> omega

theorem nwkCalcPathCost_le (router : MeshRouter) (srcAddr : ℕ) :
    (nwkCalcPathCost router srcAddr).2 ≤ 7 := by
  unfold nwkCalcPathCost
  split
  · exact le_rfl
  · split
    · exact linkCost_le _
    · dsimp only
      split
      · exact Nat.zero_le 7
      · exact le_rfl

theorem le_byteSum_iff {link carried : ℕ} (hlink : link ≤ 7) :
    carried ≤ (link + carried) % 2 ^ 8 ↔ link + carried < 2 ^ 8 := by
  omega

section Requests

variable {router : MeshRouter} {frame : MeshFrame} {cmd : NwkCmdRreq}
  {pathCost carried : ℕ}

theorem rreqPropagate_sent {output : MeshOutput} {cost : ℕ}
    (houtput : output ∈ (rreqPropagate router frame cmd pathCost).2)
    (hcost : output.pathCost = some cost) : cost = pathCost := by
  unfold rreqPropagate at houtput
  dsimp only at houtput
  split at houtput
  · obtain rfl := mem_singleton.mp houtput
    exact (some.inj hcost).symm
  · split at houtput
    · obtain rfl := mem_singleton.mp houtput
      exact (some.inj hcost).symm
    · obtain rfl := mem_singleton.mp houtput
      exact (some.inj hcost).symm

theorem rreqFailed_sent {discEnt routingEnt : Option ℕ} {output : MeshOutput}
    (houtput : output ∈ (rreqFailed router cmd discEnt routingEnt).2) :
    output.pathCost = none := by
  unfold rreqFailed at houtput
  dsimp only at houtput
  split at houtput
  · obtain rfl := mem_singleton.mp houtput
    rfl
  · obtain rfl := mem_singleton.mp houtput
    rfl

theorem putRouting_routeDiscTable (routingEnt : Option ℕ) :
    (router.putRouting routingEnt).routeDiscTable = router.routeDiscTable := by
  cases routingEnt with
  | none => rfl
  | some r => rfl

theorem rreqFailed_routeDiscTable (routingEnt : Option ℕ) :
    (rreqFailed router cmd none routingEnt).1.routeDiscTable = router.routeDiscTable := by
  rw [rreqFailed_fst, putRouting_routeDiscTable]
  rfl

theorem costsAtLeast_rreqFailed (routingEnt : Option ℕ) :
    CostsAtLeast carried router (rreqFailed router cmd none routingEnt) where
  sent := by
    intro output houtput cost hcost
    rw [rreqFailed_sent houtput] at hcost
    contradiction
  forward := by
    intro d
    rw [rreqFailed_routeDiscTable]
    exact Or.inl rfl
  residual := by
    intro d
    rw [rreqFailed_routeDiscTable]
    exact Or.inl rfl

theorem costsAtLeast_rreqPropagate {router' : MeshRouter} {d : ℕ} {ent : NwkRouteDiscovery}
    (hle : carried ≤ pathCost)
    (htable : router'.routeDiscTable = update router.routeDiscTable d ent)
    (hforward : ent.forwardCost = pathCost)
    (hresidual : ent.residualCost = (router.routeDiscTable d).residualCost ∨
      carried ≤ ent.residualCost) :
    CostsAtLeast carried router (rreqPropagate router' frame cmd pathCost) := by
  obtain ⟨zg, hfst⟩ := rreqPropagate_fst router' frame cmd pathCost
  have hentries : (rreqPropagate router' frame cmd pathCost).1.routeDiscTable =
        update router.routeDiscTable d ent := by
    rw [hfst]
    exact htable
  constructor
  · intro output houtput cost hcost
    rw [rreqPropagate_sent houtput hcost]
    exact hle
  · intro d'
    rw [hentries]
    by_cases hd : d' = d
    · rw [hd, update_self, hforward]
      exact Or.inr hle
    · rw [update_of_ne hd]
      exact Or.inl rfl
  · intro d'
    rw [hentries]
    by_cases hd : d' = d
    · rw [hd, update_self]
      exact hresidual
    · rw [update_of_ne hd]
      exact Or.inl rfl

theorem costsAtLeast_rreqDiscovery
    (r : ℕ) (hle : carried ≤ pathCost) (hbyte : carried ≤ 0xFF) :
    CostsAtLeast carried router (rreqDiscovery router r frame cmd pathCost) := by
  unfold rreqDiscovery
  split
  · dsimp only
    split
    · exact costsAtLeast_rreqPropagate hle rfl rfl (Or.inl rfl)
    · constructor
      · intro output houtput cost hcost
        obtain rfl := mem_singleton.mp houtput
        cases hcost
      · exact fun d => Or.inl rfl
      · exact fun d => Or.inl rfl
  · split
    · exact costsAtLeast_rreqPropagate hle rfl rfl (Or.inr hbyte)
    · exact costsAtLeast_rreqFailed _

theorem rreqDiscovery_kept {d : ℕ} (r : ℕ)
    (hdisc : router.discoveryOf cmd.rreqId frame.srcAddr = some d)
    (hcheap : (router.routeDiscTable d).forwardCost ≤ pathCost) :
    (rreqDiscovery router r frame cmd pathCost).1.routeDiscTable =
      router.routeDiscTable := by
  unfold rreqDiscovery
  rw [hdisc]
  dsimp only
  rw [if_neg (Nat.not_lt.mpr hcheap)]

theorem CostsAtLeast.of_table {before : MeshRouter} {result : MeshRouter × List MeshOutput}
    (hcosts : CostsAtLeast carried before result)
    (htable : before.routeDiscTable = router.routeDiscTable) :
    CostsAtLeast carried router result := by
  obtain ⟨hsent, hforward, hresidual⟩ := hcosts
  rw [htable] at hforward hresidual
  exact ⟨hsent, hforward, hresidual⟩

theorem rreqAccumulates_iff (router : MeshRouter) (frame : MeshFrame) (cmd : NwkCmdRreq) :
    RreqAccumulates router frame cmd ↔
      (nwkCalcPathCost router frame.srcAddr).2 + cmd.pathCost < 2 ^ 8 := by
  have htotal : cmd.pathCost ≤ rreqPathCost router frame cmd ↔
      (nwkCalcPathCost router frame.srcAddr).2 + cmd.pathCost < 2 ^ 8 :=
    le_byteSum_iff (nwkCalcPathCost_le router frame.srcAddr)
  constructor
  · intro haccumulates
    exact htotal.mp haccumulates.total
  · intro hfits
    have hle := htotal.mpr hfits
    have hbyte : cmd.pathCost ≤ 0xFF := by omega
    obtain ⟨zg, hhandler⟩ := zbNwkMeshRreqHandler_cases router frame cmd
    obtain ⟨table, cnt, hrouted, -⟩ :=
      rreqRouting_spec { router with zg := zg } cmd.destAddr
    have hsame : (rreqRouting { router with zg := zg }
        cmd.destAddr).1.routeDiscTable = router.routeDiscTable := by
      rw [hrouted]
    rcases hhandler with ⟨-, hhandler⟩ | ⟨r, -, hhandler⟩
    · refine ⟨hle, ?_, ?_⟩
      · rw [hhandler]
        exact (costsAtLeast_rreqFailed none).of_table hsame
      · intro d _ _
        rw [hhandler, rreqFailed_routeDiscTable, hsame]
    · refine ⟨hle, ?_, ?_⟩
      · rw [hhandler]
        exact (costsAtLeast_rreqDiscovery r hle hbyte).of_table hsame
      · intro d hdisc hcheap
        rw [hhandler, rreqDiscovery_kept (d := d) r, hsame]
        · rw [hrouted]
          exact hdisc
        · rw [hrouted]
          exact hcheap.trans hle

end Requests

/-! ## Replies -/

section Replies

variable {router : MeshRouter} {frame : MeshFrame} {cmd : NwkCmdRrep}
  {pathCost carried : ℕ}

theorem sendPending_costs (router : MeshRouter) (destAddr : ℕ) (indices : List ℕ) :
    (sendPending destAddr router indices).1.routeDiscTable = router.routeDiscTable ∧
      ∀ output ∈ (sendPending destAddr router indices).2, output.pathCost = none := by
  induction indices generalizing router with
  | nil => exact ⟨rfl, nofun⟩
  | cons i rest ih =>
    unfold sendPending
    dsimp only
    split
    · obtain ⟨htable, hsent⟩ := ih (router.putPending i)
      refine ⟨htable, ?_⟩
      rw [forall_mem_cons]
      exact ⟨rfl, hsent⟩
    · exact ih router

theorem rrepArrived_costs (router : MeshRouter) (destAddr : ℕ) :
    (rrepArrived router destAddr).1.routeDiscTable = router.routeDiscTable ∧
      ∀ output ∈ (rrepArrived router destAddr).2, output.pathCost = none := by
  obtain ⟨htable, hsent⟩ := sendPending_costs router destAddr
    (List.range nwkPendingTableSize)
  unfold rrepArrived
  dsimp only
  split
  · refine ⟨htable, ?_⟩
    intro output houtput
    rcases mem_append.mp houtput with hpending | hrest
    · exact hsent output hpending
    · rcases mem_pair.mp hrest with rfl | rfl
      · rfl
      · rfl
  · refine ⟨htable, ?_⟩
    intro output houtput
    rcases mem_append.mp houtput with hpending | hrest
    · exact hsent output hpending
    · rw [mem_singleton.mp hrest]
      rfl

theorem rrepPropagate_costs (router : MeshRouter) (cmd : NwkCmdRrep)
    (pathCost senderAddr destAddr : ℕ) :
    (rrepPropagate router cmd pathCost senderAddr destAddr).1.routeDiscTable =
        router.routeDiscTable ∧
      ∀ output ∈ (rrepPropagate router cmd pathCost senderAddr destAddr).2,
        ∀ cost, output.pathCost = some cost → cost = pathCost := by
  unfold rrepPropagate
  split
  · obtain ⟨htable, hsent⟩ := rrepArrived_costs router destAddr
    refine ⟨htable, ?_⟩
    intro output houtput cost hcost
    rw [hsent output houtput] at hcost
    contradiction
  · refine ⟨rfl, ?_⟩
    intro output houtput cost hcost
    obtain rfl := mem_singleton.mp houtput
    exact (some.inj hcost).symm

theorem zbNwkMeshRrepHandler_eq
    (router : MeshRouter) (frame : MeshFrame) (cmd : NwkCmdRrep) :
    ∃ zg, zbNwkMeshRrepHandler router frame cmd =
      match router.discoveryOf cmd.rreqId cmd.originator, router.routeTo cmd.responder with
      | some d, some r =>
        if rrepPathCost router frame cmd > (router.routeDiscTable d).residualCost then
          ({ router with zg := zg }, [.freeBuf])
        else
          rrepPropagate ((({ router with zg := zg } : MeshRouter).setRouteDisc d
              { router.routeDiscTable d with
                residualCost := rrepPathCost router frame cmd
                expirationTime := nwkRouteDiscoveryExpiry }).setRouting r
              { router.routingTable r with
                nextHopAddr := nwkGetMacSourceAddr router frame
                status :=
                  if (router.routingTable r).status = .discoveryUnderway then
                    .validationUnderway
                  else (router.routingTable r).status })
            cmd (rrepPathCost router frame cmd)
            (router.routeDiscTable d).senderAddr
            (router.routingTable r).destAddr
      | discEnt, routingEnt =>
        ((({ router with zg := zg } : MeshRouter).putRouteDisc
          discEnt).putRouting routingEnt, [.freeBuf]) := by
  obtain ⟨zg, hcost⟩ := nwkCalcPathCost_fst router frame.srcAddr
  refine ⟨zg, ?_⟩
  unfold zbNwkMeshRrepHandler
  dsimp only
  rw [hcost]
  rfl

theorem putRouteDisc_costs (discEnt : Option ℕ) (d : ℕ) :
    ((router.putRouteDisc discEnt).routeDiscTable d).forwardCost =
        (router.routeDiscTable d).forwardCost ∧
      ((router.putRouteDisc discEnt).routeDiscTable d).residualCost =
        (router.routeDiscTable d).residualCost := by
  cases discEnt with
  | none => exact ⟨rfl, rfl⟩
  | some i =>
    change (update router.routeDiscTable i
          { router.routeDiscTable i with used := false } d).forwardCost = _ ∧
        (update router.routeDiscTable i
          { router.routeDiscTable i with used := false } d).residualCost = _
    by_cases hd : d = i
    · rw [hd, update_self]
      exact ⟨rfl, rfl⟩
    · rw [update_of_ne hd]
      exact ⟨rfl, rfl⟩

theorem costsAtLeast_dropped (zg : Globals) (discEnt routingEnt : Option ℕ) :
    CostsAtLeast carried router ((({ router with zg := zg } : MeshRouter).putRouteDisc
        discEnt).putRouting routingEnt, [.freeBuf]) where
  sent := by
    intro output houtput cost hcost
    obtain rfl := mem_singleton.mp houtput
    cases hcost
  forward := by
    intro d
    rw [putRouting_routeDiscTable]
    exact Or.inl (putRouteDisc_costs discEnt d).1
  residual := by
    intro d
    rw [putRouting_routeDiscTable]
    exact Or.inl (putRouteDisc_costs discEnt d).2

theorem costsAtLeast_rrepTaken {router' : MeshRouter} {d : ℕ} {ent : NwkRouteDiscovery}
    (senderAddr destAddr : ℕ) (hle : carried ≤ pathCost)
    (htable : router'.routeDiscTable = update router.routeDiscTable d ent)
    (hforward : ent.forwardCost = (router.routeDiscTable d).forwardCost)
    (hresidual : ent.residualCost = pathCost) :
    CostsAtLeast carried router
      (rrepPropagate router' cmd pathCost senderAddr destAddr) := by
  obtain ⟨hentries, hsent⟩ := rrepPropagate_costs router' cmd pathCost senderAddr destAddr
  constructor
  · intro output houtput cost hcost
    rw [hsent output houtput cost hcost]
    exact hle
  · intro d'
    rw [hentries, htable]
    by_cases hd : d' = d
    · rw [hd, update_self]
      exact Or.inl hforward
    · rw [update_of_ne hd]
      exact Or.inl rfl
  · intro d'
    rw [hentries, htable]
    by_cases hd : d' = d
    · rw [hd, update_self, hresidual]
      exact Or.inr hle
    · rw [update_of_ne hd]
      exact Or.inl rfl

theorem rrepAccumulates_iff (router : MeshRouter) (frame : MeshFrame) (cmd : NwkCmdRrep) :
    RrepAccumulates router frame cmd ↔
      (nwkCalcPathCost router frame.srcAddr).2 + cmd.pathCost < 2 ^ 8 := by
  have htotal : cmd.pathCost ≤ rrepPathCost router frame cmd ↔
      (nwkCalcPathCost router frame.srcAddr).2 + cmd.pathCost < 2 ^ 8 :=
    le_byteSum_iff (nwkCalcPathCost_le router frame.srcAddr)
  constructor
  · intro haccumulates
    exact htotal.mp haccumulates.total
  · intro hfits
    have hle := htotal.mpr hfits
    obtain ⟨zg, hhandler⟩ := zbNwkMeshRrepHandler_eq router frame cmd
    cases hdisc : router.discoveryOf cmd.rreqId cmd.originator with
    | none =>
      rw [hdisc] at hhandler
      refine ⟨hle, ?_, ?_⟩
      · rw [hhandler]
        exact costsAtLeast_dropped zg none _
      · intro d r hd
        rw [hdisc] at hd
        contradiction
    | some d =>
      cases hroute : router.routeTo cmd.responder with
      | none =>
        rw [hdisc, hroute] at hhandler
        refine ⟨hle, ?_, ?_⟩
        · rw [hhandler]
          exact costsAtLeast_dropped zg (some d) none
        · intro d' r _ hr
          rw [hroute] at hr
          contradiction
      | some r =>
        rw [hdisc, hroute] at hhandler
        dsimp only at hhandler
        by_cases hcheap : rrepPathCost router frame cmd >
            (router.routeDiscTable d).residualCost
        · rw [if_pos hcheap] at hhandler
          refine ⟨hle, ?_, ?_⟩
          · rw [hhandler]
            exact costsAtLeast_dropped zg none none
          · intro _ _ _ _ _
            rw [hhandler]
            exact ⟨rfl, rfl⟩
        · rw [if_neg hcheap] at hhandler
          refine ⟨hle, ?_, ?_⟩
          · rw [hhandler]
            exact costsAtLeast_rrepTaken _ _ hle rfl rfl rfl
          · intro d' r' hd' _ hresidual
            obtain rfl := some.inj (hdisc.symm.trans hd')
            omega

end Replies

/-- In both handlers the cost of a path is no less than the cost in the frame
exactly when the sum fits into a byte. -/
theorem pathCosts_accumulate_iff (router : MeshRouter) (frame : MeshFrame)
    (rreq : NwkCmdRreq) (rrep : NwkCmdRrep) :
    (RreqAccumulates router frame rreq ↔
        (nwkCalcPathCost router frame.srcAddr).2 + rreq.pathCost < 2 ^ 8) ∧
      (RrepAccumulates router frame rrep ↔
        (nwkCalcPathCost router frame.srcAddr).2 + rrep.pathCost < 2 ^ 8) :=
  ⟨rreqAccumulates_iff router frame rreq, rrepAccumulates_iff router frame rrep⟩

/-- A router which counts seven for each link, with a discovery of router 3
for 9 at the cost of seven. -/
def constantCostRouter : MeshRouter :=
  { activeRouter 1 with reportConstantCost := true }

/-- A request with cost 250 is entered with cost one, in place of the better
path, and is sent on so. -/
theorem not_accumulates_nearLimit :
    ¬ RreqAccumulates constantCostRouter ⟨some 4, 3, 0, 10⟩ ⟨0, 9, 250⟩ ∧
      ((zbNwkMeshRreqHandler constantCostRouter ⟨some 4, 3, 0, 10⟩
        ⟨0, 9, 250⟩).1.routeDiscTable 0).senderAddr = 4 ∧
      ¬ RrepAccumulates constantCostRouter ⟨some 4, 4, 0, 10⟩ ⟨0, 3, 9, 250⟩ ∧
      ((zbNwkMeshRrepHandler constantCostRouter ⟨some 4, 4, 0, 10⟩
        ⟨0, 3, 9, 250⟩).1.routeDiscTable 0).residualCost = 1 := by
  refine ⟨?_, by decide +kernel, ?_, by decide +kernel⟩
  · intro haccumulates
    exact absurd haccumulates.total (by decide)
  · intro haccumulates
    exact absurd haccumulates.total (by decide)

end Zboss
