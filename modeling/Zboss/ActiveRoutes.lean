import Zboss.MeshRouting

/-!
# Active routes

What the handlers of mesh routing do to routes which are in use.  Route
requests and replies which cannot be handled free the route which they have
found, whatever its state is.
-/

namespace Zboss

open Function Option

theorem nwkArrayFindEnt_eq_some {size i : ℕ} {used condition : ℕ → Bool}
    (hfind : nwkArrayFindEnt size used condition = some i) :
    i < size ∧ used i = true ∧ condition i = true := by
  rw [nwkArrayFindEnt, List.find?_range_eq_some, Bool.and_eq_true] at hfind
  exact ⟨List.mem_range.mp hfind.2.1, hfind.1⟩

theorem nwkArrayGetEnt_eq_some
    {size i : ℕ} {used : ℕ → Bool} (hget : nwkArrayGetEnt size used = some i) :
    i < size ∧ used i = false := by
  rw [nwkArrayGetEnt, List.find?_range_eq_some, Bool.not_eq_true'] at hget
  exact ⟨List.mem_range.mp hget.2.1, hget.1⟩

namespace MeshRouter

variable {router : MeshRouter} {i : ℕ}

theorem routeTo_eq_some {destAddr : ℕ} (hroute : router.routeTo destAddr = some i) :
    i < nwkRoutingTableSize ∧ (router.routingTable i).used = true ∧
      (router.routingTable i).destAddr = destAddr := by
  obtain ⟨hlt, hused, hdest⟩ := nwkArrayFindEnt_eq_some hroute
  exact ⟨hlt, hused, beq_iff_eq.mp hdest⟩

theorem discoveryOf_eq_some {rreqId sourceAddr : ℕ}
    (hdisc : router.discoveryOf rreqId sourceAddr = some i) :
    i < nwkRouteDiscoveryTableSize ∧ (router.routeDiscTable i).used = true ∧
      (router.routeDiscTable i).requestId = rreqId ∧
      (router.routeDiscTable i).sourceAddr = sourceAddr := by
  obtain ⟨hlt, hused, hmatch⟩ := nwkArrayFindEnt_eq_some hdisc
  rw [Bool.and_eq_true, beq_iff_eq, beq_iff_eq] at hmatch
  exact ⟨hlt, hused, hmatch⟩

theorem freeRouting_eq_some (hfree : router.freeRouting = some i) :
    i < nwkRoutingTableSize ∧ (router.routingTable i).used = false :=
  nwkArrayGetEnt_eq_some hfree

theorem freeRouteDisc_eq_some (hfree : router.freeRouteDisc = some i) :
    i < nwkRouteDiscoveryTableSize ∧ (router.routeDiscTable i).used = false :=
  nwkArrayGetEnt_eq_some hfree

end MeshRouter

theorem nwkCalcPathCost_fst (router : MeshRouter) (srcAddr : ℕ) :
    ∃ zg, (nwkCalcPathCost router srcAddr).1 = { router with zg := zg } := by
  unfold nwkCalcPathCost
  split
  · exact ⟨router.zg, rfl⟩
  · split
    · exact ⟨_, rfl⟩
    · exact ⟨_, rfl⟩

theorem rreqPropagate_fst (router : MeshRouter) (frame : MeshFrame) (cmd : NwkCmdRreq)
    (pathCost : ℕ) :
    ∃ zg, (rreqPropagate router frame cmd pathCost).1 = { router with zg := zg } := by
  unfold rreqPropagate
  dsimp only
  split
  · exact ⟨router.zg, rfl⟩
  · split
    · exact ⟨_, rfl⟩
    · exact ⟨_, rfl⟩

theorem rreqFailed_fst
    (router : MeshRouter) (cmd : NwkCmdRreq) (discEnt routingEnt : Option ℕ) :
    (rreqFailed router cmd discEnt routingEnt).1 =
      (router.putRouteDisc discEnt).putRouting routingEnt := by
  unfold rreqFailed
  dsimp only
  split
  · rfl
  · rfl

theorem rreqRouting_eq_none {router : MeshRouter} {destAddr : ℕ} :
    (rreqRouting router destAddr).2 = none ↔
      router.routeTo destAddr = none ∧ router.freeRouting = none := by
  unfold rreqRouting
  split
  · rename_i r hroute
    rw [hroute]
    dsimp only
    split
    · simp
    · simp
  · rename_i hroute
    rw [hroute]
    split
    · rename_i r hfree
      simp [hfree]
    · rename_i hfree
      simp [hfree]

theorem rreqRouting_spec (router : MeshRouter) (destAddr : ℕ) :
    ∃ table cnt, (rreqRouting router destAddr).1 =
        { router with routingTable := table, routingTableCnt := cnt } ∧
      (((rreqRouting router destAddr).2 = none ∧
          router.routeTo destAddr = none ∧ table = router.routingTable) ∨
        ∃ r ent, (rreqRouting router destAddr).2 = some r ∧
          table = update router.routingTable r ent ∧
          ent.used = true ∧ ent.destAddr = destAddr ∧
          r < nwkRoutingTableSize ∧
          (router.routeTo destAddr = some r ∧ ((router.routingTable r).status = .active →
                ent = router.routingTable r) ∨
            router.routeTo destAddr = none ∧ (router.routingTable r).used = false)) := by
  unfold rreqRouting
  split
  · rename_i r hroute
    obtain ⟨hlt, hused, hdest⟩ := MeshRouter.routeTo_eq_some hroute
    dsimp only
    split
    · rename_i hunused
      refine ⟨_, router.routingTableCnt, rfl, Or.inr ⟨r,
        { router.routingTable r with status := .discoveryUnderway }, rfl, rfl,
        hused, hdest, hlt, Or.inl ⟨hroute, ?_⟩⟩⟩
      intro hactive
      exact absurd hactive hunused.1
    · refine ⟨router.routingTable, router.routingTableCnt, rfl, Or.inr ⟨r,
        router.routingTable r, rfl, ?_, hused, hdest, hlt,
        Or.inl ⟨hroute, fun _ => rfl⟩⟩⟩
      exact (update_eq_self r router.routingTable).symm
  · rename_i hroute
    split
    · rename_i r hfree
      obtain ⟨hlt, hunused⟩ := MeshRouter.freeRouting_eq_some hfree
      exact ⟨_, _, rfl, Or.inr ⟨r, _, rfl, rfl, rfl, rfl, hlt, Or.inr ⟨hroute, hunused⟩⟩⟩
    · exact ⟨router.routingTable, router.routingTableCnt, rfl, Or.inl ⟨rfl, hroute, rfl⟩⟩

def KeepsActive (router router' : MeshRouter) : Prop :=
  ∀ i < nwkRoutingTableSize, (router.routingTable i).used = true →
    (router.routingTable i).status = .active →
      router'.routingTable i = router.routingTable i

theorem keepsActive_of_eq {router router' : MeshRouter}
    (htable : router'.routingTable = router.routingTable) :
    KeepsActive router router' :=
  fun i _ _ _ => congrFun htable i

theorem KeepsActive.trans {router router' router'' : MeshRouter}
    (hfirst : KeepsActive router router')
    (hsecond : KeepsActive router' router'') :
    KeepsActive router router'' := by
  intro i hi hused hactive
  have hsame := hfirst i hi hused hactive
  rw [hsecond i hi (hsame ▸ hused) (hsame ▸ hactive), hsame]

theorem keepsActive_update {router router' : MeshRouter} {r : ℕ} {ent : NwkRouting}
    (htable : router'.routingTable = update router.routingTable r ent)
    (hother : (router.routingTable r).used = true →
      (router.routingTable r).status = .active → ent = router.routingTable r) :
    KeepsActive router router' := by
  intro i _ hused hactive
  rw [htable]
  by_cases hi : i = r
  · subst hi
    rw [update_self]
    exact hother hused hactive
  · rw [update_of_ne hi]

theorem keepsActive_freed_iff {router router' : MeshRouter} {r : ℕ} {ent : NwkRouting}
    (htable : router'.routingTable = update router.routingTable r ent)
    (hfreed : ent.used = false) (hr : r < nwkRoutingTableSize) :
    KeepsActive router router' ↔ ((router.routingTable r).used = true →
        (router.routingTable r).status ≠ .active) := by
  constructor
  · intro hkeeps hused hactive
    have hsame := congrArg NwkRouting.used (hkeeps r hr hused hactive)
    rw [htable, update_self, hfreed, hused] at hsame
    contradiction
  · intro hother
    apply keepsActive_update htable
    intro hused hactive
    exact absurd hactive (hother hused)

inductive MeshCall where
  | rreq (frame : MeshFrame) (cmd : NwkCmdRreq)
  | rrep (frame : MeshFrame) (cmd : NwkCmdRrep)
  | expiry

def MeshCall.apply (router : MeshRouter) : MeshCall → MeshRouter
  | .rreq frame cmd => (zbNwkMeshRreqHandler router frame cmd).1
  | .rrep frame cmd => (zbNwkMeshRrepHandler router frame cmd).1
  | .expiry => (zbNwkMeshExpiryRouteDisc router).1

def MeshCall.Unrelated (router : MeshRouter) : MeshCall → Prop
  | .rrep _ cmd => router.discoveryOf cmd.rreqId cmd.originator = none
  | _ => True

/-- A request for a destination with an active route is known, or there is a
free entry for its discovery; a reply without discovery is not about an active
route. -/
def MeshCall.SparesActive (router : MeshRouter) : MeshCall → Prop
  | .rreq frame cmd =>
      ∀ r ∈ router.routeTo cmd.destAddr, (router.routingTable r).status = .active →
          router.discoveryOf cmd.rreqId frame.srcAddr ≠ none ∨ router.freeRouteDisc ≠ none
  | .rrep _ cmd =>
      ∀ r ∈ router.routeTo cmd.responder, (router.routingTable r).status ≠ .active
  | .expiry => True

theorem rreqDiscovery_routingTable
    (router : MeshRouter) (r : ℕ) (frame : MeshFrame) (cmd : NwkCmdRreq)
    (pathCost : ℕ) :
    (rreqDiscovery router r frame cmd pathCost).1.routingTable =
      if router.discoveryOf cmd.rreqId frame.srcAddr = none ∧
          router.freeRouteDisc = none then
        update router.routingTable r { router.routingTable r with used := false }
      else router.routingTable := by
  have hpropagate : ∀ router' : MeshRouter,
      (rreqPropagate router' frame cmd pathCost).1.routingTable =
        router'.routingTable := by
    intro router'
    obtain ⟨zg, heq⟩ := rreqPropagate_fst router' frame cmd pathCost
    rw [heq]
  unfold rreqDiscovery
  cases hdisc : router.discoveryOf cmd.rreqId frame.srcAddr with
  | some d =>
    rw [if_neg (fun hnone => some_ne_none d hnone.1)]
    dsimp only
    split
    · exact hpropagate _
    · rfl
  | none =>
    cases hfree : router.freeRouteDisc with
    | some d =>
      rw [if_neg (fun hnone => some_ne_none d hnone.2)]
      exact hpropagate _
    | none =>
      rw [if_pos ⟨rfl, rfl⟩]
      dsimp only
      rw [rreqFailed_fst]
      rfl

def rreqPathCost (router : MeshRouter) (frame : MeshFrame) (cmd : NwkCmdRreq) : ℕ :=
  ((nwkCalcPathCost router frame.srcAddr).2 + cmd.pathCost) % 2 ^ 8

theorem zbNwkMeshRreqHandler_cases
    (router : MeshRouter) (frame : MeshFrame) (cmd : NwkCmdRreq) :
    ∃ zg, ((rreqRouting { router with zg := zg } cmd.destAddr).2 = none ∧
        zbNwkMeshRreqHandler router frame cmd =
          rreqFailed (rreqRouting { router with zg := zg } cmd.destAddr).1 cmd none none) ∨
      ∃ r, (rreqRouting { router with zg := zg } cmd.destAddr).2 = some r ∧
        zbNwkMeshRreqHandler router frame cmd =
          rreqDiscovery (rreqRouting { router with zg := zg } cmd.destAddr).1 r
            frame cmd (rreqPathCost router frame cmd) := by
  obtain ⟨zg, hcost⟩ := nwkCalcPathCost_fst router frame.srcAddr
  refine ⟨zg, ?_⟩
  unfold zbNwkMeshRreqHandler
  dsimp only
  rw [hcost]
  cases hrouting : rreqRouting { router with zg := zg } cmd.destAddr with
  | mk router' routingEnt =>
    cases routingEnt with
    | none => exact Or.inl ⟨rfl, rfl⟩
    | some r => exact Or.inr ⟨r, rfl, rfl⟩

/-- What a route request leaves as it was. -/
structure MeshRouter.KeepsOwn (router next : MeshRouter) : Prop where
  pendingTable : next.pendingTable = router.pendingTable
  address : next.address = router.address

theorem keepsOwn_rreqDiscovery (router : MeshRouter) (r : ℕ) (frame : MeshFrame)
    (cmd : NwkCmdRreq) (pathCost : ℕ) :
    router.KeepsOwn (rreqDiscovery router r frame cmd pathCost).1 := by
  have hpropagate : ∀ router' : MeshRouter,
      router'.KeepsOwn (rreqPropagate router' frame cmd pathCost).1 := by
    intro router'
    obtain ⟨zg, heq⟩ := rreqPropagate_fst router' frame cmd pathCost
    rw [heq]
    exact ⟨rfl, rfl⟩
  unfold rreqDiscovery
  split
  · dsimp only
    split
    · exact ⟨(hpropagate _).pendingTable, (hpropagate _).address⟩
    · exact ⟨rfl, rfl⟩
  · split
    · exact ⟨(hpropagate _).pendingTable, (hpropagate _).address⟩
    · rw [rreqFailed_fst]
      exact ⟨rfl, rfl⟩

theorem keepsOwn_zbNwkMeshRreqHandler
    (router : MeshRouter) (frame : MeshFrame) (cmd : NwkCmdRreq) :
    router.KeepsOwn (zbNwkMeshRreqHandler router frame cmd).1 := by
  obtain ⟨zg, hcases⟩ := zbNwkMeshRreqHandler_cases router frame cmd
  obtain ⟨table, cnt, hrouted, -⟩ := rreqRouting_spec { router with zg := zg } cmd.destAddr
  rcases hcases with ⟨-, hhandler⟩ | ⟨r, -, hhandler⟩
  · rw [hhandler, hrouted, rreqFailed_fst]
    exact ⟨rfl, rfl⟩
  · have hkept := keepsOwn_rreqDiscovery { router with
      zg := zg, routingTable := table, routingTableCnt := cnt } r frame cmd
      (rreqPathCost router frame cmd)
    rw [hhandler, hrouted]
    exact ⟨hkept.pendingTable, hkept.address⟩

theorem keepsActive_rreq_iff (router : MeshRouter) (frame : MeshFrame) (cmd : NwkCmdRreq) :
    KeepsActive router (MeshCall.apply router (.rreq frame cmd)) ↔
      MeshCall.SparesActive router (.rreq frame cmd) := by
  obtain ⟨zg, hhandler⟩ := zbNwkMeshRreqHandler_cases router frame cmd
  obtain ⟨table, cnt, hrouted, hroute⟩ :=
    rreqRouting_spec { router with zg := zg } cmd.destAddr
  rw [MeshCall.apply, MeshCall.SparesActive]
  rcases hhandler with ⟨hnone, hhandler⟩ | ⟨r, hsome, hhandler⟩
  · -- no entry for the route, and none is freed
    have hkeeps : KeepsActive router (zbNwkMeshRreqHandler router frame cmd).1 := by
      rcases hroute with ⟨-, -, rfl⟩ | ⟨r, ent, hr, -⟩
      · apply keepsActive_of_eq
        rw [hhandler, hrouted, rreqFailed_fst]
        rfl
      · rw [hnone] at hr
        contradiction
    refine iff_of_true hkeeps ?_
    intro r hr
    rcases hroute with ⟨-, habsent, -⟩ | ⟨r', ent, hr', -⟩
    · change router.routeTo cmd.destAddr = none at habsent
      rw [habsent] at hr
      contradiction
    · rw [hnone] at hr'
      contradiction
  · rcases hroute with ⟨hnone, -, -⟩ | ⟨r', ent, hr', rfl, -, -, hlt, hent⟩
    · rw [hsome] at hnone
      contradiction
    · obtain rfl := some.inj (hsome.symm.trans hr')
      have htable := rreqDiscovery_routingTable
        (rreqRouting { router with zg := zg } cmd.destAddr).1 r frame cmd
        (rreqPathCost router frame cmd)
      rw [← hhandler, hrouted] at htable
      by_cases hfull : router.discoveryOf cmd.rreqId frame.srcAddr = none ∧
          router.freeRouteDisc = none
      · -- the route is freed again
        have hfreed := htable.trans (if_pos hfull)
        dsimp only at hfreed
        rw [update_idem, update_self] at hfreed
        rw [keepsActive_freed_iff hfreed rfl hlt]
        rcases hent with ⟨hroute, -⟩ | ⟨hroute, hunused⟩
        · change router.routeTo cmd.destAddr = some r at hroute
          rw [hroute]
          have hused := (MeshRouter.routeTo_eq_some hroute).2.1
          constructor
          · intro hother r' hr' hactive
            obtain rfl := some.inj hr'
            exact absurd hactive (hother hused)
          · intro hspares _ hactive
            rcases hspares r rfl hactive with hdisc | hfree
            · exact hdisc hfull.1
            · exact hfree hfull.2
        · change router.routeTo cmd.destAddr = none at hroute
          change (router.routingTable r).used = false at hunused
          rw [hroute, hunused]
          refine iff_of_true (fun hused => ?_) (fun r' hr' => ?_)
          · contradiction
          · contradiction
      · have hkept := htable.trans (if_neg hfull)
        refine iff_of_true (keepsActive_update hkept ?_) ?_
        · intro hused hactive
          rcases hent with ⟨-, hsame⟩ | ⟨-, hunused⟩
          · exact hsame hactive
          · change (router.routingTable r).used = false at hunused
            rw [hused] at hunused
            contradiction
        · intro _ _ _
          exact not_and_or.mp hfull

theorem zbNwkMeshRrepHandler_unrelated
    {router : MeshRouter} {cmd : NwkCmdRrep} (frame : MeshFrame)
    (hunrelated : router.discoveryOf cmd.rreqId cmd.originator = none) :
    ∃ zg, (zbNwkMeshRrepHandler router frame cmd).1 =
      ({ router with zg := zg } : MeshRouter).putRouting
        (router.routeTo cmd.responder) := by
  obtain ⟨zg, hcost⟩ := nwkCalcPathCost_fst router frame.srcAddr
  refine ⟨zg, ?_⟩
  have hdisc : ({ router with zg := zg } : MeshRouter).discoveryOf cmd.rreqId
      cmd.originator = none := hunrelated
  unfold zbNwkMeshRrepHandler
  dsimp only
  rw [hcost, hdisc]
  rfl

theorem keepsActive_rrep_iff {router : MeshRouter} {frame : MeshFrame} {cmd : NwkCmdRrep}
    (hunrelated : router.discoveryOf cmd.rreqId cmd.originator = none) :
    KeepsActive router (MeshCall.apply router (.rrep frame cmd)) ↔
      MeshCall.SparesActive router (.rrep frame cmd) := by
  obtain ⟨zg, hfst⟩ := zbNwkMeshRrepHandler_unrelated frame hunrelated
  rw [MeshCall.apply, MeshCall.SparesActive, hfst]
  cases hroute : router.routeTo cmd.responder with
  | none =>
    refine iff_of_true (keepsActive_of_eq rfl) ?_
    intro r hr
    contradiction
  | some r =>
    obtain ⟨hlt, hused, -⟩ := MeshRouter.routeTo_eq_some hroute
    have htable : (({ router with zg := zg } : MeshRouter).putRouting
        (some r)).routingTable =
        update router.routingTable r { router.routingTable r with used := false } := rfl
    rw [keepsActive_freed_iff htable rfl hlt]
    constructor
    · intro hother r' hr'
      obtain rfl := some.inj hr'
      exact hother hused
    · intro hspares _
      exact hspares r rfl

theorem keepsActive_expiryLoop (router : MeshRouter) (indices : List ℕ) :
    KeepsActive router (expiryLoop router indices).1 := by
  induction indices generalizing router with
  | nil => exact keepsActive_of_eq rfl
  | cons i rest ih =>
    rw [expiryLoop]
    dsimp only
    split
    · split
      · refine KeepsActive.trans ?_ (ih _)
        exact keepsActive_of_eq rfl
      · split
        · rename_i k hfind
          obtain ⟨-, -, hmatch⟩ := nwkArrayFindEnt_eq_some hfind
          rw [Bool.and_eq_true, bne_iff_ne] at hmatch
          refine keepsActive_update rfl ?_
          intro _ hactive
          exact absurd hactive hmatch.2
        · refine KeepsActive.trans ?_ (ih _)
          exact keepsActive_of_eq rfl
    · exact ih router

theorem keepsActive_expiry (router : MeshRouter) :
    KeepsActive router (MeshCall.apply router .expiry) := by
  rw [MeshCall.apply, zbNwkMeshExpiryRouteDisc]
  dsimp only
  split
  · exact keepsActive_expiryLoop router _
  · exact keepsActive_of_eq rfl

/-- A request, an unrelated reply or the expiry of discoveries keeps active
routes if and only if it does not end with the route which it has found being
freed. -/
theorem keepsActive_iff_sparesActive (router : MeshRouter) (call : MeshCall)
    (hunrelated : call.Unrelated router) :
    KeepsActive router (call.apply router) ↔ call.SparesActive router := by
  cases call with
  | rreq frame cmd => exact keepsActive_rreq_iff router frame cmd
  | rrep frame cmd => exact keepsActive_rrep_iff hunrelated
  | expiry => exact iff_of_true (keepsActive_expiry router) trivial

/-- The router 1 has a route to 9, and discoveries for other requests in the
first entries of the discovery table. -/
def activeRouter (discoveries : ℕ) : MeshRouter where
  zg := .init .zero
  address := 1
  maxDepth := 5
  reportConstantCost := false
  routingTable i := { used := i = 0, status := .active, destAddr := 9, nextHopAddr := 4 }
  routingTableCnt := 1
  routeDiscTable i :=
    { used := i < discoveries
      requestId := i
      sourceAddr := 3
      senderAddr := 3
      destAddr := 8
      forwardCost := 7
      residualCost := 0xFF
      expirationTime := nwkRouteDiscoveryExpiry }
  routeDiscTableCnt := 5
  pendingTable _ := { used := false, buf := 0, handle := 0, destAddr := 0 }
  pendingTableCnt := 0
  rreqId := 0
  apsRreqAddr := 0xFFFF
  statusIndAddr := 0

def requestForNine : MeshCall :=
  .rreq ⟨some 2, 2, 0, 10⟩ ⟨0, 9, 0⟩

def replyOfNine : MeshCall :=
  .rrep ⟨some 4, 4, 0, 10⟩ ⟨200, 2, 9, 0⟩

/-- With room for the discovery the route stays. -/
theorem keepsActive_requestForNine :
    KeepsActive (activeRouter 4) (requestForNine.apply (activeRouter 4)) :=
  (keepsActive_iff_sparesActive (activeRouter 4) requestForNine trivial).mpr
    fun _ _ _ => Or.inr (by decide)

/-- A request without room for its discovery and a reply which nobody waits
for free the route. -/
theorem not_keepsActive_requestForNine :
    ¬ KeepsActive (activeRouter 5) (requestForNine.apply (activeRouter 5)) ∧
      replyOfNine.Unrelated (activeRouter 5) ∧
      ¬ KeepsActive (activeRouter 5) (replyOfNine.apply (activeRouter 5)) := by
  have hunrelated : (activeRouter 5).discoveryOf 200 2 = none := by decide
  refine ⟨?_, hunrelated, ?_⟩
  · intro hkeeps
    have hsame := congrArg NwkRouting.used (hkeeps 0 (by decide) (by decide) (by decide))
    exact absurd hsame (by decide +kernel)
  · intro hkeeps
    have hsame := congrArg NwkRouting.used (hkeeps 0 (by decide) (by decide) (by decide))
    exact absurd hsame (by decide +kernel)

end Zboss
