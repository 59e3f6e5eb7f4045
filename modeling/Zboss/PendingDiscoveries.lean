import Zboss.BroadcastTables
import Mathlib.Data.Finset.Option

/-!
# Packets which wait for a route

A packet without a route waits in the pending table, and a buffer is requested
for its discovery.  Requests and entries are linked by a flag in the entry
alone: a granted buffer goes to the first entry with the flag, whoever has
requested it.
-/

namespace Zboss

open Function Option SlotTable TransitionSystem

namespace NwkMain

def freePending (nwk : NwkMain) : Option ℕ :=
  nwkArrayGetEnt nwkPendingTableSize fun i => (nwk.mesh.pendingTable i).used

def waiting (nwk : NwkMain) : Finset ℕ :=
  inUse nwkPendingTableSize fun i => (nwk.mesh.pendingTable i).used && nwk.waitingBuf i

def inPending (nwk : NwkMain) (param : ℕ) : Bool :=
  (List.range nwkPendingTableSize).any fun i =>
    (nwk.mesh.pendingTable i).used && (nwk.mesh.pendingTable i).buf == param

def changeOthers (nwk next : NwkMain) : NwkMain :=
  { next with
    mesh := { next.mesh with pendingTable := nwk.mesh.pendingTable }
    waitingBuf := nwk.waitingBuf
    packets := fun param =>
      if nwk.inPending param then nwk.packets param else next.packets param }

@[mk_iff] structure JoinsDiscovery (nwk : NwkMain) (param : ℕ) : Prop where
  router : nwk.deviceType ≠ .endDevice
  unicast : nwkIsAddressBroadcast (nwk.packets param).dstAddr = false
  noNeighbor : (nwk.destNeighbor (nwk.packets param)).map Prod.snd = some none
  discoverRoute : (nwk.packets param).discoverRoute = true
  underway : ∃ r ∈ nwk.mesh.routeTo (nwk.packets param).dstAddr,
    (nwk.mesh.routingTable r).status = .discoveryUnderway
  own : ∃ d ∈ nwk.findRouteDiscoveryEntry (nwk.packets param).dstAddr,
    (nwk.mesh.routeDiscTable d).sourceAddr = nwk.mesh.address
  room : nwk.freePending ≠ none

instance (nwk : NwkMain) (param : ℕ) : Decidable (nwk.JoinsDiscovery param) :=
  decidable_of_iff _ (nwk.joinsDiscovery_iff param).symm

end NwkMain

def MeshRouter.Completes
    (router : MeshRouter) (frame : MeshFrame) (cmd : NwkCmdRrep) : Prop :=
  cmd.originator = router.address ∧ router.routeTo cmd.responder ≠ none ∧
    ∃ d ∈ router.discoveryOf cmd.rreqId cmd.originator,
      ((nwkCalcPathCost router frame.srcAddr).2 + cmd.pathCost) % 2 ^ 8 ≤
        (router.routeDiscTable d).residualCost

instance (router : MeshRouter) (frame : MeshFrame) (cmd : NwkCmdRrep) :
    Decidable (router.Completes frame cmd) :=
  inferInstanceAs (Decidable (_ ∧ _ ∧ ∃ d ∈ _, _))

namespace MeshRouter

/-- A discovery of the router itself for `destAddr` is in the table, under the
identifier of its last request. -/
def Discovers (router : MeshRouter) (destAddr : ℕ) : Prop :=
  ∃ d < nwkRouteDiscoveryTableSize, (router.routeDiscTable d).used = true ∧
    (router.routeDiscTable d).requestId = router.rreqId ∧
      (router.routeDiscTable d).sourceAddr = router.address ∧
        (router.routeDiscTable d).destAddr = destAddr

/-- The two tables have room for a discovery under the next identifier. -/
@[mk_iff] structure HasDiscoveryRoom (router : MeshRouter) (destAddr : ℕ) : Prop where
  routing : router.routeTo destAddr = none → router.freeRouting ≠ none
  unused : router.discoveryOf ((router.rreqId + 1) % 2 ^ 8) router.address = none
  discovery : router.freeRouteDisc ≠ none

instance (router : MeshRouter) (destAddr : ℕ) :
    Decidable (router.HasDiscoveryRoom destAddr) :=
  decidable_of_iff _ (router.hasDiscoveryRoom_iff destAddr).symm

end MeshRouter

/-- What is sent for a discovery: a route request for the destination, or a route
reply in the name of a neighbor. -/
def MeshOutput.Seeks (destAddr : ℕ) : MeshOutput → Prop
  | .sendRreq cmd _ _ _ => cmd.destAddr = destAddr
  | .sendRrep cmd _ _ => cmd.responder = destAddr
  | _ => False

structure PendingRun where
  nwk : NwkMain
  requests : ℕ
  needing : Finset ℕ

/-- A packet is to be sent, and the pool has an entry for a request or not; a
buffer is granted; a route reply is handled; the timer of the pending table has
run out; or something else happens. -/
inductive PendingEvent where
  | packet (param : ℕ) (packet : NwkPacket) (accepted : Bool)
  | grant (param : ℕ)
  | reply (frame : MeshFrame) (cmd : NwkCmdRrep)
  | expiry
  | other (next : NwkMain)

namespace PendingRun

def flush (run : PendingRun) (nwk : NwkMain) : PendingRun :=
  { run with
    nwk := nwk
    needing := run.needing.filter fun i => (nwk.mesh.pendingTable i).used = true }

def step (run : PendingRun) : PendingEvent → Option PendingRun
  | .packet param packet accepted =>
      if run.nwk.inPending param then none
      else
        ((run.nwk.setPacket param packet).nwkCalcDestination param).map
          fun (nwk, _, outputs) =>
            if outputs = [] then { run with nwk := nwk }
            else
              { nwk := nwk
                requests := if accepted then run.requests + 1 else run.requests
                needing := run.needing ∪ run.nwk.freePending.toFinset }
  | .grant param =>
      if run.requests = 0 then none
      else
        (run.nwk.zbNwkMeshInitiateRouteDiscovery param).map fun (nwk, _) =>
          { nwk := nwk
            requests := run.requests - 1
            needing := run.needing \ run.nwk.findWaiting.toFinset }
  | .reply frame cmd =>
      some (run.flush
          { run.nwk with
            mesh := (zbNwkMeshRrepHandler run.nwk.mesh frame cmd).1 })
  | .expiry => some (run.flush run.nwk.zbNwkMeshExpiryPending.1)
  | .other next => some { run with nwk := run.nwk.changeOthers next }

def start (nwk : NwkMain) : PendingRun := ⟨nwk, 0, ∅⟩

/-- A buffer which is granted goes to an entry which has requested one, and a
discovery for its destination is underway afterwards. -/
def Serves (run : PendingRun) : PendingEvent → Prop
  | .grant param =>
      run.requests ≠ 0 → ∃ i ∈ run.needing, (run.nwk.mesh.pendingTable i).used = true ∧
          ∃ nwk output, run.nwk.zbNwkMeshInitiateRouteDiscovery param =
              some (nwk, [.mesh param output]) ∧
            nwk.waitingBuf i = false ∧
              nwk.mesh.Discovers (run.nwk.mesh.pendingTable i).destAddr ∧
                output.Seeks (run.nwk.mesh.pendingTable i).destAddr
  | _ => True

def Covered (run : PendingRun) : Prop := run.needing.card ≤ run.requests

/-- Requests are accepted, a packet does not join a discovery of the router
itself, a granted buffer finds room for the discovery, and no entry is flushed
while it waits for a buffer. -/
def Meets (run : PendingRun) : PendingEvent → Prop
  | .packet param packet accepted =>
      accepted = true ∧ ¬ (run.nwk.setPacket param packet).JoinsDiscovery param
  | .grant _ =>
      ∀ i ∈ run.nwk.findWaiting,
        run.nwk.mesh.HasDiscoveryRoom (run.nwk.mesh.pendingTable i).destAddr
  | .reply frame cmd =>
      run.nwk.mesh.Completes frame cmd → ∀ i ∈ run.nwk.waiting,
          (run.nwk.mesh.pendingTable i).destAddr ≠ cmd.responder
  | .expiry =>
      run.nwk.mesh.pendingTableCnt ≠ 0 → ∀ i ∈ run.nwk.waiting, run.nwk.pendExpiry i ≠ 0
  | _ => True

instance (run : PendingRun) (event : PendingEvent) :
    Decidable (run.Meets event) := by
  unfold Meets
  split <;> infer_instance

structure Matched (run : PendingRun) : Prop where
  waiting : run.nwk.waiting = run.needing
  requests : run.requests = run.needing.card
  packets : ∀ i, i < nwkPendingTableSize → (run.nwk.mesh.pendingTable i).used = true →
      (run.nwk.packets (run.nwk.mesh.pendingTable i).buf).dstAddr =
        (run.nwk.mesh.pendingTable i).destAddr

end PendingRun

theorem rreqPropagate_seeks (router : MeshRouter) (frame : MeshFrame)
    (cmd : NwkCmdRreq) (pathCost : ℕ) :
    ∃ zg output, rreqPropagate router frame cmd pathCost =
        ({ router with zg := zg }, [output]) ∧ output.Seeks cmd.destAddr := by
  unfold rreqPropagate
  dsimp only
  split
  · exact ⟨router.zg, _, rfl, rfl⟩
  · split
    · exact ⟨_, _, rfl, rfl⟩
    · exact ⟨_, _, rfl, rfl⟩

theorem zbNwkMeshRouteDiscovery_discovers {router : MeshRouter} (macSource : Option ℕ)
    {destAddr : ℕ} (radius : ℕ) (hroom : router.HasDiscoveryRoom destAddr) :
    ∃ next output, zbNwkMeshRouteDiscovery router macSource destAddr radius =
      (next, [output]) ∧ next.Discovers destAddr ∧ output.Seeks destAddr := by
  obtain ⟨d, hfree⟩ := ne_none_iff_exists'.mp hroom.discovery
  obtain ⟨hd, -⟩ := MeshRouter.freeRouteDisc_eq_some hfree
  rw [zbNwkMeshRouteDiscovery]
  obtain ⟨zg, hcases⟩ := zbNwkMeshRreqHandler_cases
    { router with rreqId := (router.rreqId + 1) % 2 ^ 8 }
    { macSource := macSource
      srcAddr := router.address
      seqNum := 0
      radius := if radius ≠ 0 then radius else router.maxDepth * 2 % 2 ^ 8 }
    { rreqId := (router.rreqId + 1) % 2 ^ 8, destAddr := destAddr, pathCost := 0 }
  obtain ⟨table, cnt, hrouted, -⟩ := rreqRouting_spec
    { { router with rreqId := (router.rreqId + 1) % 2 ^ 8 } with zg := zg } destAddr
  rcases hcases with ⟨hnone, -⟩ | ⟨r, -, hhandler⟩
  · -- there is an entry of the routing table
    obtain ⟨hroute, hfull⟩ := rreqRouting_eq_none.mp hnone
    exact absurd hfull (hroom.routing hroute)
  · dsimp only at hhandler ⊢
    rw [hhandler, hrouted, rreqDiscovery]
    have hunused := hroom.unused
    unfold MeshRouter.discoveryOf MeshRouter.findRouteDisc at hunused ⊢
    unfold MeshRouter.freeRouteDisc at hfree ⊢
    dsimp only
    rw [hunused]
    dsimp only
    rw [hfree]
    dsimp only
    obtain ⟨zg', output, hsent, hseeks⟩ := rreqPropagate_seeks _ _ _ _
    rw [hsent]
    refine ⟨_, output, rfl, ⟨d, hd, ?_⟩, hseeks⟩
    simp [MeshRouter.setRouteDisc]

/-- Entries for which `freed` holds may be flushed, and nothing else happens to
the pending table. -/
def FlushesOnly (table table' : ℕ → NwkPend) (freed : ℕ → Prop) : Prop :=
  ∀ i, table' i = table i ∨ freed i ∧ (table i).used = true ∧
      table' i = { table i with used := false }

theorem FlushesOnly.refl (table : ℕ → NwkPend) (freed : ℕ → Prop) :
    FlushesOnly table table freed :=
  fun _ => .inl rfl

theorem FlushesOnly.mono {table table' : ℕ → NwkPend} {freed freed' : ℕ → Prop}
    (himp : ∀ i, freed i → freed' i) (hflushes : FlushesOnly table table' freed) :
    FlushesOnly table table' freed' :=
  fun i => (hflushes i).imp_right fun hfreed => ⟨himp i hfreed.1, hfreed.2⟩

theorem sendPending_flushes (destAddr : ℕ) (router : MeshRouter) (indices : List ℕ) :
    FlushesOnly router.pendingTable (sendPending destAddr router indices).1.pendingTable
      fun i => (router.pendingTable i).destAddr = destAddr := by
  induction indices generalizing router with
  | nil => exact .refl _ _
  | cons j rest ih =>
    rw [sendPending]
    dsimp only
    split
    · rename_i hsent
      intro i
      by_cases hi : i = j
      · subst hi
        have hput : (router.putPending i).pendingTable i =
            { router.pendingTable i with used := false } :=
          update_self ..
        rcases ih (router.putPending i) i with hsame | ⟨-, hused, -⟩
        · exact .inr ⟨hsent.2, hsent.1, hsame.trans hput⟩
        · rw [hput] at hused
          contradiction
      · have hput : (router.putPending j).pendingTable i =
            router.pendingTable i := update_of_ne hi ..
        have hrest := ih (router.putPending j) i
        dsimp only at hrest
        rw [hput] at hrest
        exact hrest
    · exact ih router

theorem rrepArrived_flushes (router : MeshRouter) (destAddr : ℕ) :
    FlushesOnly router.pendingTable (rrepArrived router destAddr).1.pendingTable
      fun i => (router.pendingTable i).destAddr = destAddr := by
  have hsent := sendPending_flushes destAddr router (List.range nwkPendingTableSize)
  unfold rrepArrived
  dsimp only
  split
  · exact hsent
  · exact hsent

theorem rrepPropagate_flushes (router : MeshRouter) (cmd : NwkCmdRrep)
    (pathCost senderAddr destAddr : ℕ) :
    FlushesOnly router.pendingTable
      (rrepPropagate router cmd pathCost senderAddr destAddr).1.pendingTable
      fun i => cmd.originator = router.address ∧
        (router.pendingTable i).destAddr = destAddr := by
  unfold rrepPropagate
  split
  · rename_i hown
    exact FlushesOnly.mono (fun _ hdest => ⟨hown, hdest⟩)
      (rrepArrived_flushes router destAddr)
  · exact .refl _ _

theorem putRoute_pendingTable (router : MeshRouter) (discEnt routingEnt : Option ℕ) :
    ((router.putRouteDisc discEnt).putRouting routingEnt).pendingTable =
      router.pendingTable := by
  cases discEnt <;> cases routingEnt <;> rfl

theorem zbNwkMeshRrepHandler_flushes
    (router : MeshRouter) (frame : MeshFrame) (cmd : NwkCmdRrep) :
    FlushesOnly router.pendingTable (zbNwkMeshRrepHandler router frame cmd).1.pendingTable
      fun i => router.Completes frame cmd ∧
        (router.pendingTable i).destAddr = cmd.responder := by
  obtain ⟨zg, hcost⟩ := nwkCalcPathCost_fst router frame.srcAddr
  unfold zbNwkMeshRrepHandler
  dsimp only
  rw [hcost]
  split
  · rename_i d r hdisc hroute
    have hroute : router.routeTo cmd.responder = some r := hroute
    have hdisc : router.discoveryOf cmd.rreqId cmd.originator = some d := hdisc
    have hdest : (router.routingTable r).destAddr = cmd.responder :=
      (MeshRouter.routeTo_eq_some hroute).2.2
    dsimp only
    split
    · exact .refl _ _
    · rename_i hcheap
      refine FlushesOnly.mono ?_ (rrepPropagate_flushes _ cmd _ _ _)
      rintro i ⟨hown, hsent⟩
      refine ⟨⟨hown, ?_, d, hdisc, Nat.le_of_not_gt hcheap⟩, hsent.trans hdest⟩
      rw [hroute]
      exact some_ne_none r
  · rw [putRoute_pendingTable]
    exact .refl _ _

namespace NwkMain

variable {nwk next : NwkMain} {param : ℕ}

structure SamePending (nwk next : NwkMain) : Prop where
  pendingTable : next.mesh.pendingTable = nwk.mesh.pendingTable
  waitingBuf : next.waitingBuf = nwk.waitingBuf
  packets : next.packets = nwk.packets

theorem SamePending.waiting (hsame : SamePending nwk next) :
    next.waiting = nwk.waiting := by
  unfold NwkMain.waiting
  rw [hsame.pendingTable, hsame.waitingBuf]

theorem expiryPendingLoop_flushes
    {entries : List ℕ} (hnodup : entries.Nodup) (nwk : NwkMain) :
    (nwk.expiryPendingLoop entries).1.waitingBuf = nwk.waitingBuf ∧
      (nwk.expiryPendingLoop entries).1.packets = nwk.packets ∧
      FlushesOnly nwk.mesh.pendingTable (nwk.expiryPendingLoop entries).1.mesh.pendingTable
        fun i => i ∈ entries ∧ nwk.pendExpiry i = 0 := by
  induction entries generalizing nwk with
  | nil => exact ⟨rfl, rfl, .refl _ _⟩
  | cons j rest ih =>
    obtain ⟨hj, hrest⟩ := List.nodup_cons.mp hnodup
    rw [expiryPendingLoop]
    dsimp only
    split
    · rename_i hused
      split
      · rename_i hexpired
        obtain ⟨hwaiting, hpackets, hflushes⟩ :=
          ih hrest { nwk with mesh := nwk.mesh.putPending j }
        refine ⟨hwaiting, hpackets, ?_⟩
        intro i
        by_cases hi : i = j
        · subst hi
          rcases hflushes i with hsame | ⟨⟨hmem, -⟩, -⟩
          · exact .inr ⟨⟨List.mem_cons_self, hexpired⟩, hused,
              hsame.trans (update_self ..)⟩
          · exact absurd hmem hj
        · have hput : (nwk.mesh.putPending j).pendingTable i =
              nwk.mesh.pendingTable i := update_of_ne hi ..
          have hrest := hflushes i
          dsimp only at hrest
          rw [hput] at hrest
          exact hrest.imp_right fun ⟨⟨hmem, htime⟩, hfreed⟩ =>
            ⟨⟨List.mem_cons_of_mem j hmem, htime⟩, hfreed⟩
      · obtain ⟨hwaiting, hpackets, hflushes⟩ :=
          ih hrest { nwk with
            pendExpiry := update nwk.pendExpiry j (nwk.pendExpiry j - 1) }
        refine ⟨hwaiting, hpackets, FlushesOnly.mono ?_ hflushes⟩
        rintro i ⟨hmem, htime⟩
        have hi : i ≠ j := ne_of_mem_of_not_mem hmem hj
        dsimp only at htime
        rw [update_of_ne hi] at htime
        exact ⟨List.mem_cons_of_mem j hmem, htime⟩
    · obtain ⟨hwaiting, hpackets, hflushes⟩ := ih hrest nwk
      refine ⟨hwaiting, hpackets, FlushesOnly.mono ?_ hflushes⟩
      rintro i ⟨hmem, htime⟩
      exact ⟨List.mem_cons_of_mem j hmem, htime⟩

theorem zbNwkMeshExpiryPending_flushes (nwk : NwkMain) :
    nwk.zbNwkMeshExpiryPending.1.waitingBuf = nwk.waitingBuf ∧
      nwk.zbNwkMeshExpiryPending.1.packets = nwk.packets ∧
      FlushesOnly nwk.mesh.pendingTable nwk.zbNwkMeshExpiryPending.1.mesh.pendingTable
        fun i => nwk.mesh.pendingTableCnt ≠ 0 ∧ nwk.pendExpiry i = 0 := by
  unfold zbNwkMeshExpiryPending
  split
  · rename_i hcnt
    obtain ⟨hwaiting, hpackets, hflushes⟩ :=
      expiryPendingLoop_flushes (List.nodup_range (n := nwkPendingTableSize)) nwk
    exact ⟨hwaiting, hpackets,
      FlushesOnly.mono (fun _ hfreed => ⟨hcnt, hfreed.2⟩) hflushes⟩
  · exact ⟨rfl, rfl, .refl _ _⟩

structure TakesPending (nwk : NwkMain) (param i : ℕ) (next : NwkMain) : Prop where
  pendingTable : next.mesh.pendingTable = update nwk.mesh.pendingTable i
      { used := true
        buf := param
        handle := (nwk.packets param).handle
        destAddr := (nwk.packets param).dstAddr }
  waitingBuf : next.waitingBuf = update nwk.waitingBuf i true
  packets : next.packets = nwk.packets

inductive CalcPending (nwk : NwkMain) (param : ℕ) :
    NwkMain × CalcDestination × List NwkOutput → Prop
  | routed {next : NwkMain} {ret : CalcDestination}
      (hsame : SamePending nwk next) : CalcPending nwk param (next, ret, [])
  | requests {next : NwkMain} {ret : CalcDestination} {i : ℕ}
      (hfree : nwk.freePending = some i) (htakes : TakesPending nwk param i next) :
      CalcPending nwk param (next, ret, [.getBufDelayed .meshInitiateRouteDiscovery false])
  | joins {next : NwkMain} {ret : CalcDestination} {i : ℕ}
      (hfree : nwk.freePending = some i) (htakes : TakesPending nwk param i next)
      (hjoins : JoinsDiscovery nwk param) : CalcPending nwk param (next, ret, [])

theorem samePending_setZg (nwk : NwkMain) (zg : Globals) :
    SamePending nwk (nwk.setZg zg) :=
  ⟨rfl, rfl, rfl⟩

theorem SamePending.freePending (hsame : SamePending nwk next) :
    next.freePending = nwk.freePending := by
  unfold NwkMain.freePending
  rw [hsame.pendingTable]

theorem waitForRoute_calcPending {discover : Bool} (hsame : SamePending nwk next)
    (hjoins : discover = false → nwk.freePending ≠ none → JoinsDiscovery nwk param) :
    CalcPending nwk param (next.waitForRoute param discover) := by
  have hsameFree := hsame.freePending
  unfold waitForRoute addBufToPending
  dsimp only
  cases hfree : nwkArrayGetEnt nwkPendingTableSize
      (fun i => (next.mesh.pendingTable i).used) with
  | none => exact .routed hsame
  | some i =>
    have hi : nwk.freePending = some i := hsameFree.symm.trans hfree
    have htakes : TakesPending nwk param i
        { next with
          mesh :=
            { next.mesh with
              pendingTable :=
                update next.mesh.pendingTable i
                  { used := true
                    buf := param
                    handle := (next.packets param).handle
                    destAddr := (next.packets param).dstAddr }
              pendingTableCnt := next.mesh.pendingTableCnt + 1 }
          pendExpiry := update next.pendExpiry i nwkPendingEntryExpiry
          waitingBuf := update next.waitingBuf i true } := by
      refine ⟨?_, ?_, hsame.packets⟩
      · dsimp only
        rw [hsame.pendingTable, hsame.packets]
      · dsimp only
        rw [hsame.waitingBuf]
    cases discover with
    | true => exact .requests hi htakes
    | false =>
      refine .joins hi htakes (hjoins rfl ?_)
      rw [hi]
      exact some_ne_none i

variable {result : NwkMain × CalcDestination × List NwkOutput} {i : ℕ}

theorem calcTreeDestination_calcPending {destAddr : ℕ} (hsame : SamePending nwk next)
    (hcalc : next.calcTreeDestination destAddr = some result) :
    CalcPending nwk param result := by
  obtain ⟨⟨zg, row⟩, -, hrest⟩ := bind_eq_some_iff.mp hcalc
  have hzg : SamePending nwk (next.setZg zg) :=
    ⟨hsame.pendingTable, hsame.waitingBuf, hsame.packets⟩
  cases row with
  | some n =>
    obtain rfl := some.inj hrest
    exact .routed hzg
  | none =>
    obtain rfl := some.inj hrest
    exact .routed hzg

theorem calcRoute_calcPending {zg : Globals}
    (hjoins : ∀ r d, nwk.mesh.routeTo (nwk.packets param).dstAddr = some r →
      (nwk.mesh.routingTable r).status = .discoveryUnderway →
      nwk.findRouteDiscoveryEntry (nwk.packets param).dstAddr = some d →
      (nwk.mesh.routeDiscTable d).sourceAddr = nwk.mesh.address →
      nwk.freePending ≠ none → JoinsDiscovery nwk param)
    (hcalc : (nwk.setZg zg).calcRoute param = some result) :
    CalcPending nwk param result := by
  have hzg := samePending_setZg nwk zg
  unfold calcRoute at hcalc
  dsimp only at hcalc
  split at hcalc
  · obtain rfl := some.inj hcalc
    exact waitForRoute_calcPending hzg fun hfalse => absurd hfalse.symm (by decide)
  · rename_i r hroute
    split at hcalc
    · obtain rfl := some.inj hcalc
      exact .routed ⟨rfl, rfl, rfl⟩
    · obtain rfl := some.inj hcalc
      exact .routed ⟨rfl, rfl, rfl⟩
    · rename_i hstatus
      obtain rfl := some.inj hcalc
      apply waitForRoute_calcPending hzg
      intro hown
      rw [Bool.not_eq_false'] at hown
      split at hown
      · rename_i d hdisc
        exact hjoins r d hroute hstatus hdisc (beq_iff_eq.mp hown)
      · contradiction
    · split at hcalc
      · exact calcTreeDestination_calcPending hzg hcalc
      · obtain rfl := some.inj hcalc
        exact .routed hzg
    · split at hcalc
      · exact calcTreeDestination_calcPending hzg hcalc
      · obtain rfl := some.inj hcalc
        exact .routed hzg

theorem nwkCalcDestination_calcPending
    (hcalc : nwk.nwkCalcDestination param = some result) :
    CalcPending nwk param result := by
  have hself : SamePending nwk nwk := ⟨rfl, rfl, rfl⟩
  unfold nwkCalcDestination at hcalc
  dsimp only at hcalc
  split at hcalc
  · split at hcalc
    · obtain rfl := some.inj hcalc
      exact .routed hself
    · obtain rfl := some.inj hcalc
      exact .routed hself
  · rename_i hrouter
    split at hcalc
    · obtain rfl := some.inj hcalc
      exact .routed hself
    · rename_i hunicast
      obtain ⟨⟨zg, row⟩, hneighbor, hrest⟩ := bind_eq_some_iff.mp hcalc
      have hzg := samePending_setZg nwk zg
      cases row with
      | some n =>
        obtain rfl := some.inj hrest
        exact .routed hzg
      | none =>
        dsimp only at hrest
        split at hrest
        · rename_i hdiscover
          refine calcRoute_calcPending ?_ hrest
          intro r d hroute hstatus hdisc hown hroom
          refine ⟨hrouter, Bool.eq_false_of_not_eq_true hunicast, ?_,
            hdiscover, ⟨r, hroute, hstatus⟩, ⟨d, hdisc, hown⟩, hroom⟩
          rw [hneighbor]
          rfl
        · obtain rfl := some.inj hrest
          exact .routed hzg

theorem mem_waiting : i ∈ nwk.waiting ↔
      i < nwkPendingTableSize ∧ (nwk.mesh.pendingTable i).used = true ∧
        nwk.waitingBuf i = true := by
  rw [waiting, mem_inUse, Bool.and_eq_true]

theorem findWaiting_mem (hfind : nwk.findWaiting = some i) :
    i ∈ nwk.waiting := by
  obtain ⟨hlt, hused, hwaits⟩ := nwkArrayFindEnt_eq_some hfind
  exact mem_waiting.mpr ⟨hlt, hused, hwaits⟩

theorem findWaiting_eq_none : nwk.findWaiting = none ↔ nwk.waiting = ∅ := by
  rw [findWaiting, nwkArrayFindEnt, List.find?_range_eq_none,
    Finset.eq_empty_iff_forall_notMem]
  refine forall_congr' fun i => ?_
  rw [mem_waiting, not_and, Bool.not_eq_true', Bool.and_eq_false_imp, not_and,
    Bool.not_eq_true]

theorem inPending_eq_false (hout : nwk.inPending param = false)
    (hi : i < nwkPendingTableSize)
    (hused : (nwk.mesh.pendingTable i).used = true) :
    (nwk.mesh.pendingTable i).buf ≠ param := by
  intro hbuf
  have hin : nwk.inPending param = true := by
    rw [inPending, List.any_eq_true]
    exact ⟨i, List.mem_range.mpr hi, by simp [hused, hbuf]⟩
  rw [hin] at hout
  contradiction

theorem TakesPending.waiting (htakes : TakesPending nwk param i next)
    (hi : i < nwkPendingTableSize) : next.waiting = insert i nwk.waiting := by
  ext j
  rw [Finset.mem_insert, mem_waiting, mem_waiting, htakes.pendingTable, htakes.waitingBuf]
  by_cases hj : j = i
  · subst hj
    simp [hi]
  · simp [hj]

theorem waiting_startDiscovery (nwk : NwkMain) (param i destAddr : ℕ) :
    (nwk.startDiscovery param i destAddr).1.waiting = nwk.waiting.erase i := by
  have htable : (nwk.startDiscovery param i destAddr).1.mesh.pendingTable =
      nwk.mesh.pendingTable := (keepsOwn_zbNwkMeshRreqHandler ..).pendingTable
  have hflags : (nwk.startDiscovery param i destAddr).1.waitingBuf =
      update nwk.waitingBuf i false := rfl
  ext j
  rw [Finset.mem_erase, mem_waiting, mem_waiting, htable, hflags]
  by_cases hj : j = i
  · subst hj
    simp
  · simp [hj]

end NwkMain

/-! ## The invariant -/

namespace PendingRun

variable {run next : PendingRun} {event : PendingEvent}

theorem matched_start {nwk : NwkMain} (hempty : ∀ i, i < nwkPendingTableSize →
      (nwk.mesh.pendingTable i).used = false) : Matched (start nwk) where
  waiting := by
    change nwk.waiting = ∅
    rw [Finset.eq_empty_iff_forall_notMem]
    intro i hi
    obtain ⟨hlt, hused, -⟩ := NwkMain.mem_waiting.mp hi
    rw [hempty i hlt] at hused
    contradiction
  requests := rfl
  packets := by
    intro i hi hused
    change (nwk.mesh.pendingTable i).used = true at hused
    rw [hempty i hi] at hused
    contradiction

section

variable (hmatched : Matched run)

include hmatched

theorem Matched.findWaiting (hrequests : run.requests ≠ 0) :
    ∃ i ∈ run.needing, run.nwk.findWaiting = some i := by
  cases hfind : run.nwk.findWaiting with
  | some i => exact ⟨i, hmatched.waiting ▸ NwkMain.findWaiting_mem hfind, rfl⟩
  | none =>
    have hempty := NwkMain.findWaiting_eq_none.mp hfind
    rw [hmatched.requests, ← hmatched.waiting, hempty] at hrequests
    exact absurd rfl hrequests

theorem Matched.serves (hmeets : Meets run event) : Serves run event := by
  cases event with
  | grant param =>
    intro hrequests
    obtain ⟨i, hneeds, hfind⟩ := hmatched.findWaiting hrequests
    obtain ⟨hlt, hused, -⟩ := NwkMain.mem_waiting.mp (NwkMain.findWaiting_mem hfind)
    obtain ⟨next, output, hnext, hdiscovers, hseeks⟩ :=
      zbNwkMeshRouteDiscovery_discovers (run.nwk.packets param).macSource 0
        (hmeets i hfind)
    refine ⟨i, hneeds, hused, { run.nwk with
      mesh := next
      waitingBuf := update run.nwk.waitingBuf i false }, output, ?_,
      update_self .., hdiscovers, hseeks⟩
    rw [NwkMain.zbNwkMeshInitiateRouteDiscovery, hfind, map_some,
      hmatched.packets i hlt hused, NwkMain.startDiscovery, hnext]
    rfl
  | _ => trivial

theorem Matched.covered : Covered run :=
  hmatched.requests.ge

theorem Matched.flush {nwk : NwkMain} {freed : ℕ → Prop}
    (hwaiting : nwk.waitingBuf = run.nwk.waitingBuf)
    (hpackets : nwk.packets = run.nwk.packets)
    (hflushes : FlushesOnly run.nwk.mesh.pendingTable nwk.mesh.pendingTable freed)
    (hspares : ∀ i ∈ run.nwk.waiting, ¬ freed i) :
    Matched (run.flush nwk) := by
  have hsame : nwk.waiting = run.nwk.waiting := by
    ext i
    rw [NwkMain.mem_waiting, NwkMain.mem_waiting, hwaiting]
    rcases hflushes i with hkept | ⟨hfreed, hused, hput⟩
    · rw [hkept]
    · rw [hput]
      constructor
      · rintro ⟨-, hfalse, -⟩
        contradiction
      · rintro ⟨hlt, -, hflag⟩
        exact absurd hfreed (hspares i (NwkMain.mem_waiting.mpr ⟨hlt, hused, hflag⟩))
  have hneeding : run.needing.filter
      (fun i => (nwk.mesh.pendingTable i).used = true) = run.needing := by
    apply Finset.filter_true_of_mem
    intro i hi
    rw [← hmatched.waiting, ← hsame] at hi
    exact (NwkMain.mem_waiting.mp hi).2.1
  constructor
  · change nwk.waiting = run.needing.filter _
    rw [hneeding, hsame, hmatched.waiting]
  · change run.requests = (run.needing.filter _).card
    rw [hneeding, hmatched.requests]
  · intro i hi hused
    change (nwk.mesh.pendingTable i).used = true at hused
    change (nwk.packets (nwk.mesh.pendingTable i).buf).dstAddr =
      (nwk.mesh.pendingTable i).destAddr
    rcases hflushes i with hkept | ⟨-, -, hput⟩
    · rw [hkept] at hused ⊢
      rw [hpackets]
      exact hmatched.packets i hi hused
    · rw [hput] at hused
      contradiction

theorem Matched.packets_setPacket {param : ℕ} {packet : NwkPacket}
    (hout : run.nwk.inPending param = false) {j : ℕ}
    (hj : j < nwkPendingTableSize)
    (hused : (run.nwk.mesh.pendingTable j).used = true) :
    ((run.nwk.setPacket param packet).packets (run.nwk.mesh.pendingTable j).buf).dstAddr =
      (run.nwk.mesh.pendingTable j).destAddr := by
  have hother := NwkMain.inPending_eq_false hout hj hused
  have hkept : (run.nwk.setPacket param packet).packets (run.nwk.mesh.pendingTable j).buf =
        run.nwk.packets (run.nwk.mesh.pendingTable j).buf :=
    update_of_ne hother ..
  rw [hkept]
  exact hmatched.packets j hj hused

theorem Matched.packets_of_takes {nwk : NwkMain} {param i : ℕ} {packet : NwkPacket}
    (hout : run.nwk.inPending param = false)
    (htakes : (run.nwk.setPacket param packet).TakesPending param i nwk)
    {j : ℕ} (hj : j < nwkPendingTableSize)
    (hused : (nwk.mesh.pendingTable j).used = true) :
    (nwk.packets (nwk.mesh.pendingTable j).buf).dstAddr =
      (nwk.mesh.pendingTable j).destAddr := by
  rw [htakes.packets]
  rw [htakes.pendingTable] at hused ⊢
  by_cases hji : j = i
  · rw [hji, update_self]
  · rw [update_of_ne hji] at hused ⊢
    exact hmatched.packets_setPacket hout hj hused

theorem Matched.packet {param : ℕ} {packet : NwkPacket} {accepted : Bool}
    (hmeets : Meets run (.packet param packet accepted))
    (hstep : run.step (.packet param packet accepted) = some next) :
    Matched next := by
  obtain ⟨rfl, hjoins⟩ := hmeets
  rw [PendingRun.step] at hstep
  split at hstep
  · contradiction
  · rename_i hin
    have hout := Bool.eq_false_of_not_eq_true hin
    obtain ⟨⟨nwk, ret, outputs⟩, hcalc, rfl⟩ := map_eq_some_iff.mp hstep
    cases NwkMain.nwkCalcDestination_calcPending hcalc with
    | routed hsame =>
      dsimp only
      rw [if_pos rfl]
      refine ⟨hsame.waiting.trans hmatched.waiting, hmatched.requests, ?_⟩
      intro i hi hused
      dsimp only at hused ⊢
      rw [hsame.pendingTable] at hused ⊢
      rw [hsame.packets]
      exact hmatched.packets_setPacket hout hi hused
    | @requests _ _ i hfree htakes =>
      obtain ⟨hlt, hunused⟩ := nwkArrayGetEnt_eq_some hfree
      have hwaiting : nwk.waiting = insert i run.nwk.waiting := htakes.waiting hlt
      have hfree : run.nwk.freePending = some i := hfree
      have hnew : i ∉ run.nwk.waiting := by
        intro hmem
        have hused := (NwkMain.mem_waiting.mp hmem).2.1
        change (run.nwk.mesh.pendingTable i).used = false at hunused
        rw [hused] at hunused
        contradiction
      have hneeding : run.needing ∪ run.nwk.freePending.toFinset =
          insert i run.nwk.waiting := by
        rw [hfree, Option.toFinset_some, Finset.union_comm, hmatched.waiting,
          Finset.insert_eq]
      dsimp only
      rw [if_neg (List.cons_ne_nil _ _), hneeding]
      refine ⟨hwaiting, ?_, ?_⟩
      · dsimp only
        rw [Finset.card_insert_of_notMem hnew, hmatched.waiting, hmatched.requests]
        rfl
      · intro j hj hused
        exact hmatched.packets_of_takes hout htakes hj hused
    | joins _ _ hown => exact absurd hown hjoins

theorem Matched.grant {param : ℕ}
    (hstep : run.step (.grant param) = some next) : Matched next := by
  rw [PendingRun.step] at hstep
  split at hstep
  · contradiction
  · rename_i hrequests
    obtain ⟨i, hneeds, hfind⟩ := hmatched.findWaiting hrequests
    rw [NwkMain.zbNwkMeshInitiateRouteDiscovery, hfind] at hstep
    obtain rfl := some.inj hstep
    have hneeding : run.needing \ (some i).toFinset = run.needing.erase i := by
      rw [Option.toFinset_some, Finset.sdiff_singleton_eq_erase]
    dsimp only
    rw [hneeding]
    refine ⟨?_, ?_, ?_⟩
    · dsimp only
      rw [NwkMain.waiting_startDiscovery, hmatched.waiting]
    · dsimp only
      rw [Finset.card_erase_of_mem hneeds, hmatched.requests]
    · intro j hj hused
      have htable : (run.nwk.startDiscovery param i
          (run.nwk.packets (run.nwk.mesh.pendingTable i).buf).dstAddr
          ).1.mesh.pendingTable = run.nwk.mesh.pendingTable :=
        (keepsOwn_zbNwkMeshRreqHandler ..).pendingTable
      dsimp only at hused ⊢
      rw [htable] at hused ⊢
      exact hmatched.packets j hj hused

theorem Matched.step (hmeets : Meets run event)
    (hstep : run.step event = some next) : Matched next := by
  cases event with
  | packet param packet accepted => exact hmatched.packet hmeets hstep
  | grant param => exact hmatched.grant hstep
  | reply frame cmd =>
    obtain rfl := some.inj hstep
    have hflushes := zbNwkMeshRrepHandler_flushes run.nwk.mesh frame cmd
    refine Matched.flush hmatched ?_ ?_ hflushes ?_
    · rfl
    · rfl
    · rintro i hi ⟨hcompletes, hdest⟩
      exact hmeets hcompletes i hi hdest
  | expiry =>
    obtain rfl := some.inj hstep
    obtain ⟨hwaiting, hpackets, hflushes⟩ := run.nwk.zbNwkMeshExpiryPending_flushes
    apply hmatched.flush hwaiting hpackets hflushes
    rintro i hi ⟨hcnt, htime⟩
    exact hmeets hcnt i hi htime
  | other nwk =>
    obtain rfl := some.inj hstep
    refine ⟨hmatched.waiting, hmatched.requests, ?_⟩
    intro i hi hused
    have hin : run.nwk.inPending (run.nwk.mesh.pendingTable i).buf = true := by
      rw [NwkMain.inPending, List.any_eq_true]
      refine ⟨i, List.mem_range.mpr hi, ?_⟩
      change (run.nwk.mesh.pendingTable i).used = true at hused
      simp [hused]
    change (if run.nwk.inPending (run.nwk.mesh.pendingTable i).buf = true then
      run.nwk.packets (run.nwk.mesh.pendingTable i).buf
      else nwk.packets (run.nwk.mesh.pendingTable i).buf).dstAddr = _
    rw [if_pos hin]
    exact hmatched.packets i hi hused

end

/-- In every run from an empty pending table in which requests are accepted, no
packet joins a discovery of the router itself, each granted buffer finds room
for its discovery and no entry is flushed while it waits for a buffer, each
granted buffer begins the discovery which an entry has
requested it for, and each entry in need has a request. -/
theorem discoveriesServed {nwk : NwkMain} {events : List PendingEvent}
    (hempty : ∀ i, i < nwkPendingTableSize → (nwk.mesh.pendingTable i).used = false)
    (hmeets : AlongRun step Meets (start nwk) events) :
    AlongRun step Serves (start nwk) events ∧
      EveryState step Covered (start nwk) events := by
  have hstart := matched_start hempty
  constructor
  · exact alongRun_of_invariant (fun _ _ hmatched hmeets => hmatched.serves hmeets)
      (fun _ _ _ hmatched hmeets hstep => hmatched.step hmeets hstep) hstart
      hmeets
  · exact everyState_of_invariant
      (fun _ _ _ hmatched hmeets hstep => hmatched.step hmeets hstep)
      (fun _ hmatched => hmatched.covered) hstart hmeets

def packetTo (dstAddr : ℕ) : NwkPacket :=
  { broadcastingNwk.packets 0 with
    discoverRoute := true
    dstAddr := dstAddr }

/-- Two packets with different destinations each get their discovery. -/
theorem discoveriesServed_fiveSix : AlongRun step Serves (start broadcastingNwk)
        [.packet 0 (packetTo 5) true, .packet 1 (packetTo 6) true, .grant 2, .grant 3] ∧
      EveryState step Covered (start broadcastingNwk)
        [.packet 0 (packetTo 5) true, .packet 1 (packetTo 6) true, .grant 2, .grant 3] :=
  discoveriesServed (fun _ _ => rfl) (by decide +kernel)

/-- The second packet joins the discovery of the first one, and takes the
buffer which the third one has requested. -/
theorem not_discoveriesServed_fiveFiveSix : ¬ AlongRun step Serves (start broadcastingNwk)
      [.packet 0 (packetTo 5) true, .grant 3, .packet 1 (packetTo 5) true,
        .packet 2 (packetTo 6) true, .grant 4] := by
  intro hserves
  have hlast : (run step (start broadcastingNwk)
      [.packet 0 (packetTo 5) true, .grant 3, .packet 1 (packetTo 5) true,
        .packet 2 (packetTo 6) true]).any (fun last =>
          last.requests ≠ 0 ∧ last.needing = {2} ∧
            last.nwk.findWaiting = some 1 ∧ last.nwk.waitingBuf 2 = true) =
        true := by
    decide +kernel
  obtain ⟨last, hrun, hfacts⟩ := (any_eq_true _ _).mp hlast
  obtain ⟨hrequests, hneeding, hfind, hflag⟩ := of_decide_eq_true hfacts
  obtain ⟨i, hi, -, nwk, output, hstarts, hserved, -⟩ :=
    AlongRun.last hserves hrun hrequests
  rw [hneeding, Finset.mem_singleton] at hi
  rw [NwkMain.zbNwkMeshInitiateRouteDiscovery, hfind] at hstarts
  have hflags := congrArg (fun result : NwkMain × _ => result.1.waitingBuf 2)
    (some.inj hstarts)
  have hkept : last.nwk.waitingBuf 2 = nwk.waitingBuf 2 := hflags
  rw [hi, ← hkept, hflag] at hserved
  contradiction

end PendingRun

end Zboss
