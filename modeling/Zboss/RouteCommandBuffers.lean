import Zboss.ActiveRoutes

/-!
# Buffers of route commands

What the handlers of route requests and route replies do with the buffer of
the command.  A callback which is scheduled with the buffer takes it.
-/

namespace Zboss

def MeshOutput.disposes : MeshOutput → Bool
  | .sendRreq _ _ _ _ | .sendRrep _ _ _ | .discoveryConfirm _ | .freeBuf => true
  | .forwardPending _ _ | .discoveryFailed | .scheduleExpiry => false

def bufDisposals (outputs : List MeshOutput) : ℕ :=
  outputs.countP MeshOutput.disposes

theorem bufDisposals_rreqFailed
    (router : MeshRouter) (cmd : NwkCmdRreq) (discEnt routingEnt : Option ℕ) :
    bufDisposals (rreqFailed router cmd discEnt routingEnt).2 = 1 := by
  unfold rreqFailed
  dsimp only
  split
  · rfl
  · rfl

theorem bufDisposals_rreqPropagate
    (router : MeshRouter) (frame : MeshFrame) (cmd : NwkCmdRreq)
    (pathCost : ℕ) :
    bufDisposals (rreqPropagate router frame cmd pathCost).2 = 1 := by
  unfold rreqPropagate
  dsimp only
  split
  · rfl
  · split
    · rfl
    · rfl

theorem bufDisposals_rreqDiscovery
    (router : MeshRouter) (r : ℕ) (frame : MeshFrame) (cmd : NwkCmdRreq)
    (pathCost : ℕ) :
    bufDisposals (rreqDiscovery router r frame cmd pathCost).2 = 1 := by
  unfold rreqDiscovery
  split
  · dsimp only
    split
    · exact bufDisposals_rreqPropagate _ frame cmd pathCost
    · rfl
  · split
    · exact bufDisposals_rreqPropagate _ frame cmd pathCost
    · exact bufDisposals_rreqFailed router cmd none (some r)

theorem bufDisposals_rreqHandler
    (router : MeshRouter) (frame : MeshFrame) (cmd : NwkCmdRreq) :
    bufDisposals (zbNwkMeshRreqHandler router frame cmd).2 = 1 := by
  obtain ⟨zg, ⟨-, heq⟩ | ⟨r, -, heq⟩⟩ := zbNwkMeshRreqHandler_cases router frame cmd
  · rw [heq]
    exact bufDisposals_rreqFailed _ cmd none none
  · rw [heq]
    exact bufDisposals_rreqDiscovery _ r frame cmd _

theorem sendPending_spec (destAddr : ℕ) (router : MeshRouter) (entries : List ℕ) :
    bufDisposals (sendPending destAddr router entries).2 = 0 ∧
      (sendPending destAddr router entries).1.apsRreqAddr = router.apsRreqAddr := by
  induction entries generalizing router with
  | nil => exact ⟨rfl, rfl⟩
  | cons i rest ih =>
    rw [sendPending]
    dsimp only
    split
    · exact ih (router.putPending i)
    · exact ih router

/-- The reply ends a discovery which the router has started for its upper
layer. -/
def RrepConfirms (router : MeshRouter) (frame : MeshFrame) (cmd : NwkCmdRrep) : Prop :=
  ∃ d ∈ router.discoveryOf cmd.rreqId cmd.originator, router.routeTo cmd.responder ≠ none ∧
      ((nwkCalcPathCost router frame.srcAddr).2 + cmd.pathCost) % 2 ^ 8 ≤
        (router.routeDiscTable d).residualCost ∧
      cmd.originator = router.address ∧ router.apsRreqAddr = cmd.responder

theorem bufDisposals_rrepArrived (router : MeshRouter) (destAddr : ℕ) :
    bufDisposals (rrepArrived router destAddr).2 =
      if router.apsRreqAddr = destAddr then 2 else 1 := by
  obtain ⟨hnone, haps⟩ := sendPending_spec destAddr router (List.range nwkPendingTableSize)
  unfold rrepArrived
  dsimp only
  rw [haps]
  split
  · have hsum : bufDisposals ((sendPending destAddr router
        (List.range nwkPendingTableSize)).2 ++
          [.discoveryConfirm true, .freeBuf]) = 0 + 2 := by
      rw [bufDisposals, List.countP_append]
      exact congrArg (· + 2) hnone
    exact hsum
  · have hsum : bufDisposals ((sendPending destAddr router
        (List.range nwkPendingTableSize)).2 ++ [.freeBuf]) = 0 + 1 := by
      rw [bufDisposals, List.countP_append]
      exact congrArg (· + 1) hnone
    exact hsum

theorem bufDisposals_rrepPropagate (router : MeshRouter) (cmd : NwkCmdRrep)
    (pathCost senderAddr destAddr : ℕ) :
    bufDisposals (rrepPropagate router cmd pathCost senderAddr destAddr).2 =
      if cmd.originator = router.address ∧ router.apsRreqAddr = destAddr then 2
      else 1 := by
  unfold rrepPropagate
  by_cases hown : cmd.originator = router.address
  · rw [if_pos hown, bufDisposals_rrepArrived]
    exact if_congr (and_iff_right hown).symm rfl rfl
  · rw [if_neg hown, if_neg (fun h => hown h.1)]
    rfl

theorem bufDisposals_rrepHandler
    (router : MeshRouter) (frame : MeshFrame) (cmd : NwkCmdRrep) :
    bufDisposals (zbNwkMeshRrepHandler router frame cmd).2 = 1 ↔
      ¬ RrepConfirms router frame cmd := by
  obtain ⟨zg, hcost⟩ := nwkCalcPathCost_fst router frame.srcAddr
  have hsame : ∀ rreqId addr, ({ router with zg := zg } : MeshRouter).discoveryOf
      rreqId addr = router.discoveryOf rreqId addr := fun _ _ => rfl
  have hroutes : ∀ addr, ({ router with zg := zg } : MeshRouter).routeTo addr =
      router.routeTo addr := fun _ => rfl
  unfold zbNwkMeshRrepHandler RrepConfirms
  dsimp only
  rw [hcost, hsame, hroutes]
  cases hdisc : router.discoveryOf cmd.rreqId cmd.originator with
  | none =>
    refine iff_of_true rfl ?_
    rintro ⟨d, hd, -⟩
    contradiction
  | some d =>
    cases hroute : router.routeTo cmd.responder with
    | none =>
      refine iff_of_true rfl ?_
      rintro ⟨_, _, hr, -⟩
      exact hr rfl
    | some r =>
      have hdest := (MeshRouter.routeTo_eq_some hroute).2.2
      dsimp only
      split
      · rename_i hlong
        refine iff_of_true rfl ?_
        rintro ⟨_, hd, -, hshort, -⟩
        obtain rfl := Option.some.inj hd
        exact absurd hshort (Nat.not_le_of_gt hlong)
      · rename_i hshort
        rw [bufDisposals_rrepPropagate, hdest]
        by_cases hconfirms : cmd.originator = router.address ∧
            router.apsRreqAddr = cmd.responder
        · refine iff_of_false ?_ ?_
          · intro honce
            exact absurd ((if_pos hconfirms).symm.trans honce) (by decide)
          · exact not_not_intro ⟨d, rfl, Option.some_ne_none r,
              Nat.le_of_not_gt hshort, hconfirms⟩
        · refine iff_of_true (if_neg hconfirms) ?_
          rintro ⟨_, _, -, -, hother⟩
          exact hconfirms hother

/-- Every request disposes of its buffer exactly once, and a reply does unless
it confirms a discovery of the upper layer. -/
theorem bufDisposals_handlers (router : MeshRouter) (frame : MeshFrame) (rreq : NwkCmdRreq)
    (rrep : NwkCmdRrep) :
    (bufDisposals (zbNwkMeshRreqHandler router frame rreq).2 = 1 ∧
      bufDisposals (zbNwkMeshRrepHandler router frame rrep).2 = 1) ↔
        ¬ RrepConfirms router frame rrep :=
  (and_iff_right (bufDisposals_rreqHandler router frame rreq)).trans
    (bufDisposals_rrepHandler router frame rrep)

def discoveringRouter : MeshRouter :=
  { activeRouter 0 with
    routingTable i :=
      { used := i = 0
        status := .discoveryUnderway
        destAddr := 9
        nextHopAddr := 0 }
    routeDiscTable i :=
      { used := i = 0
        requestId := 1
        sourceAddr := 1
        senderAddr := 1
        destAddr := 9
        forwardCost := 0
        residualCost := 0xFF
        expirationTime := nwkRouteDiscoveryExpiry }
    routeDiscTableCnt := 1
    rreqId := 1
    apsRreqAddr := 9 }

/-- The reply for this route is confirmed and freed. -/
theorem bufDisposals_replyToUpperLayer :
    bufDisposals (zbNwkMeshRrepHandler discoveringRouter ⟨some 4, 4, 0, 10⟩
      ⟨1, 1, 9, 0⟩).2 ≠ 1 := by
  have houtputs : (zbNwkMeshRrepHandler discoveringRouter ⟨some 4, 4, 0, 10⟩
      ⟨1, 1, 9, 0⟩).2 = [.discoveryConfirm true, .freeBuf] := by
    decide +kernel
  rw [houtputs]
  decide

end Zboss
