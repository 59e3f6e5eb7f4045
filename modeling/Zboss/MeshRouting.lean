import Zboss.NeighborTable

/-!
# Mesh routing

The handlers of route requests and route replies and the expiry of route
discoveries in `nwk_cr_mesh_routing.c`, with the macros of `nwk_internal.h`
which they use.  Arrays are functions on indices, and entries are known by
their indices.
-/

namespace Zboss

def nwkRoutingTableSize : ℕ := 5

def nwkRouteDiscoveryTableSize : ℕ := 5

def nwkPendingTableSize : ℕ := 5

def nwkStaticPathCost : ℕ := 7

def nwkRouteDiscoveryExpiry : ℕ := 10

inductive RouteState where
  | active
  | discoveryUnderway
  | discoveryFailed
  | discoveryInactive
  | validationUnderway
  deriving DecidableEq

structure NwkRouting where
  used : Bool
  status : RouteState
  destAddr : ℕ
  nextHopAddr : ℕ

structure NwkRouteDiscovery where
  used : Bool
  requestId : ℕ
  sourceAddr : ℕ
  senderAddr : ℕ
  destAddr : ℕ
  forwardCost : ℕ
  residualCost : ℕ
  expirationTime : ℕ

structure NwkPend where
  used : Bool
  buf : ℕ
  handle : ℕ
  destAddr : ℕ

/-- What a router uses for mesh routing: its tables, its own address, and the
parts of `ZG->nwk` for routes. -/
structure MeshRouter where
  zg : Globals
  address : ℕ
  maxDepth : ℕ
  reportConstantCost : Bool
  routingTable : ℕ → NwkRouting
  routingTableCnt : UInt8
  routeDiscTable : ℕ → NwkRouteDiscovery
  routeDiscTableCnt : UInt8
  pendingTable : ℕ → NwkPend
  pendingTableCnt : UInt8
  rreqId : ℕ
  apsRreqAddr : ℕ
  statusIndAddr : ℕ

/-- The parts of a received frame which the handlers read.  A frame without
MAC header is one of the router itself. -/
structure MeshFrame where
  macSource : Option ℕ
  srcAddr : ℕ
  seqNum : ℕ
  radius : ℕ

structure NwkCmdRreq where
  rreqId : ℕ
  destAddr : ℕ
  pathCost : ℕ
  deriving DecidableEq

structure NwkCmdRrep where
  rreqId : ℕ
  originator : ℕ
  responder : ℕ
  pathCost : ℕ
  deriving DecidableEq

/-- What the handlers send, schedule and free.  The sequence number of a
request is that of the router itself if there is none. -/
inductive MeshOutput where
  | sendRreq (cmd : NwkCmdRreq) (srcAddr : ℕ) (seqNum : Option ℕ) (radius : ℕ)
  | sendRrep (cmd : NwkCmdRrep) (target radius : ℕ)
  | forwardPending (buf handle : ℕ)
  | discoveryConfirm (success : Bool)
  | discoveryFailed
  | scheduleExpiry
  | freeBuf
  deriving DecidableEq

def nwkArrayFindEnt (size : ℕ) (used condition : ℕ → Bool) : Option ℕ :=
  (List.range size).find? fun i => used i && condition i

def nwkArrayGetEnt (size : ℕ) (used : ℕ → Bool) : Option ℕ :=
  (List.range size).find? fun i => !used i

namespace MeshRouter

def findRouting (router : MeshRouter) (condition : ℕ → Bool) : Option ℕ :=
  nwkArrayFindEnt nwkRoutingTableSize (fun i => (router.routingTable i).used) condition

def findRouteDisc (router : MeshRouter) (condition : ℕ → Bool) : Option ℕ :=
  nwkArrayFindEnt nwkRouteDiscoveryTableSize
    (fun i => (router.routeDiscTable i).used) condition

def routeTo (router : MeshRouter) (destAddr : ℕ) : Option ℕ :=
  router.findRouting fun i => (router.routingTable i).destAddr == destAddr

def discoveryOf (router : MeshRouter) (rreqId sourceAddr : ℕ) : Option ℕ :=
  router.findRouteDisc fun i =>
    (router.routeDiscTable i).requestId == rreqId &&
      (router.routeDiscTable i).sourceAddr == sourceAddr

def freeRouting (router : MeshRouter) : Option ℕ :=
  nwkArrayGetEnt nwkRoutingTableSize fun i => (router.routingTable i).used

def freeRouteDisc (router : MeshRouter) : Option ℕ :=
  nwkArrayGetEnt nwkRouteDiscoveryTableSize fun i => (router.routeDiscTable i).used

def setRouting (router : MeshRouter) (i : ℕ) (ent : NwkRouting) : MeshRouter :=
  { router with routingTable := Function.update router.routingTable i ent }

def setRouteDisc (router : MeshRouter) (i : ℕ) (ent : NwkRouteDiscovery) :
    MeshRouter :=
  { router with routeDiscTable := Function.update router.routeDiscTable i ent }

/-- `NWK_ARRAY_PUT_ENT` for the routing table, with a pointer which may be
`NULL`. -/
def putRouting (router : MeshRouter) : Option ℕ → MeshRouter
  | some i =>
      { router.setRouting i { router.routingTable i with used := false } with
        routingTableCnt := router.routingTableCnt - 1 }
  | none => router

def putRouteDisc (router : MeshRouter) : Option ℕ → MeshRouter
  | some i =>
      { router.setRouteDisc i { router.routeDiscTable i with used := false } with
        routeDiscTableCnt := router.routeDiscTableCnt - 1 }
  | none => router

def putPending (router : MeshRouter) (i : ℕ) : MeshRouter :=
  { router with
    pendingTable := Function.update router.pendingTable i
      { router.pendingTable i with used := false }
    pendingTableCnt := router.pendingTableCnt - 1 }

end MeshRouter

/-- Returns a row number in place of a pointer to the row.  A lookup which
creates nothing fails no assertion. -/
def zbNwkNeighborGetByShort (zg : Globals) (shortAddr : ℕ) :
    Globals × Option ℕ :=
  match zbAddressByShort zg.addr shortAddr false false with
  | some (addr, .ok ref) =>
      let n := zg.neighbor.addrToNeighbor ref
      ({ zg with addr := addr }, if n ≠ noNeighbor then some n else none)
  | some (addr, .error _) => ({ zg with addr := addr }, none)
  | none => (zg, none)

/-- The loop of `NWK_CALC_PATH_COST`; a link quality has eight bits. -/
def lqiLevel (lqi : ℕ) : ℕ → ℕ → ℕ
  | 0, i => i
  | rounds + 1, i => if 32 * (i + 1) < lqi then lqiLevel lqi rounds (i + 1) else i

def linkCost (lqi : UInt8) : ℕ :=
  let i := lqiLevel lqi.toNat 8 0
  if 7 - i ≠ 0 then 7 - i else 1

def nwkCalcPathCost (router : MeshRouter) (srcAddr : ℕ) : MeshRouter × ℕ :=
  if router.reportConstantCost then (router, nwkStaticPathCost)
  else
    match zbNwkNeighborGetByShort router.zg srcAddr with
    | (zg, some n) => ({ router with zg := zg }, linkCost (zg.neighbor.baseNeighbor n).lqi)
    | (zg, none) =>
        ({ router with zg := zg },
          if srcAddr = router.address then 0 else nwkStaticPathCost)

def nwkGetMacSourceAddr (router : MeshRouter) (frame : MeshFrame) : ℕ :=
  frame.macSource.getD router.address

def zbNwkMeshSendRreq (router : MeshRouter) (cmd : NwkCmdRreq)
    (srcAddr seqNum pathCost radius : ℕ) : MeshOutput :=
  .sendRreq { cmd with pathCost := pathCost } srcAddr
    (if srcAddr ≠ router.address then some seqNum else none) radius

def zbNwkMeshSendRrep
    (router : MeshRouter) (rreqId originator responder pathCost senderAddr : ℕ) :
    MeshOutput :=
  .sendRrep ⟨rreqId, originator, responder, pathCost⟩ senderAddr
    (router.maxDepth * 2 % 2 ^ 8)

/-- The first part of `zb_nwk_mesh_rreq_handler`: the entry of the routing
table, which may be new. -/
def rreqRouting (router : MeshRouter) (destAddr : ℕ) :
    MeshRouter × Option ℕ :=
  match router.routeTo destAddr with
  | some r =>
      let ent := router.routingTable r
      if ent.status ≠ .active ∧ ent.status ≠ .validationUnderway then
        (router.setRouting r { ent with status := .discoveryUnderway }, some r)
      else (router, some r)
  | none =>
      match router.freeRouting with
      | some r =>
          ({ router.setRouting r
              { router.routingTable r with
                used := true
                destAddr := destAddr
                status := .discoveryUnderway } with
              routingTableCnt := router.routingTableCnt + 1 },
            some r)
      | none => (router, none)

def rreqFailed (router : MeshRouter) (cmd : NwkCmdRreq) (discEnt routingEnt : Option ℕ) :
    MeshRouter × List MeshOutput :=
  let router := (router.putRouteDisc discEnt).putRouting routingEnt
  if router.apsRreqAddr ≠ 0 ∧ router.apsRreqAddr = cmd.destAddr then
    (router, [.discoveryConfirm false])
  else (router, [.freeBuf])

def rreqPropagate (router : MeshRouter) (frame : MeshFrame) (cmd : NwkCmdRreq)
    (pathCost : ℕ) : MeshRouter × List MeshOutput :=
  let reply :=
    zbNwkMeshSendRrep router cmd.rreqId frame.srcAddr cmd.destAddr pathCost
      (nwkGetMacSourceAddr router frame)
  if cmd.destAddr = router.address then (router, [reply])
  else
    match zbNwkNeighborGetByShort router.zg cmd.destAddr with
    | (zg, some _) => ({ router with zg := zg }, [reply])
    | (zg, none) =>
        ({ router with zg := zg },
          [zbNwkMeshSendRreq router cmd frame.srcAddr frame.seqNum pathCost frame.radius])

/-- The second part of `zb_nwk_mesh_rreq_handler`: the entry of the discovery
table, and what is sent. -/
def rreqDiscovery (router : MeshRouter) (routingEnt : ℕ) (frame : MeshFrame)
    (cmd : NwkCmdRreq) (pathCost : ℕ) : MeshRouter × List MeshOutput :=
  match router.discoveryOf cmd.rreqId frame.srcAddr with
  | some d =>
      let ent := router.routeDiscTable d
      if pathCost < ent.forwardCost then
        rreqPropagate (router.setRouteDisc d
            { ent with
              senderAddr := nwkGetMacSourceAddr router frame
              forwardCost := pathCost })
          frame cmd pathCost
      else (router, [.freeBuf])
  | none =>
      match router.freeRouteDisc with
      | some d =>
          rreqPropagate
            { router.setRouteDisc d
                { used := true
                  requestId := cmd.rreqId
                  sourceAddr := frame.srcAddr
                  senderAddr := nwkGetMacSourceAddr router frame
                  destAddr := cmd.destAddr
                  forwardCost := pathCost
                  residualCost := 0xFF
                  expirationTime := nwkRouteDiscoveryExpiry } with
              routeDiscTableCnt := router.routeDiscTableCnt + 1 }
            frame cmd pathCost
      | none => rreqFailed router cmd none (some routingEnt)

def zbNwkMeshRreqHandler (router : MeshRouter) (frame : MeshFrame) (cmd : NwkCmdRreq) :
    MeshRouter × List MeshOutput :=
  let (router, cost) := nwkCalcPathCost router frame.srcAddr
  let pathCost := (cost + cmd.pathCost) % 2 ^ 8
  match rreqRouting router cmd.destAddr with
  | (router, none) => rreqFailed router cmd none none
  | (router, some r) => rreqDiscovery router r frame cmd pathCost

/-- `macSource` is what is left of a MAC header in the buffer. -/
def zbNwkMeshRouteDiscovery
    (router : MeshRouter) (macSource : Option ℕ) (destAddr radius : ℕ) :
    MeshRouter × List MeshOutput :=
  let rreqId := (router.rreqId + 1) % 2 ^ 8
  zbNwkMeshRreqHandler { router with rreqId := rreqId }
    { macSource := macSource
      srcAddr := router.address
      seqNum := 0
      radius := if radius ≠ 0 then radius else router.maxDepth * 2 % 2 ^ 8 }
    { rreqId := rreqId, destAddr := destAddr, pathCost := 0 }

/-- The loop over the pending table after a route to `destAddr` was found. -/
def sendPending (destAddr : ℕ) (router : MeshRouter) :
    List ℕ → MeshRouter × List MeshOutput
  | [] => (router, [])
  | i :: rest =>
      let ent := router.pendingTable i
      if ent.used ∧ ent.destAddr = destAddr then
        let (router, outputs) := sendPending destAddr (router.putPending i) rest
        (router, .forwardPending ent.buf ent.handle :: outputs)
      else sendPending destAddr router rest

def rrepArrived (router : MeshRouter) (destAddr : ℕ) :
    MeshRouter × List MeshOutput :=
  let (router, outputs) := sendPending destAddr router (List.range nwkPendingTableSize)
  if router.apsRreqAddr = destAddr then
    ({ router with apsRreqAddr := 0xFFFF }, outputs ++ [.discoveryConfirm true, .freeBuf])
  else (router, outputs ++ [.freeBuf])

def rrepPropagate (router : MeshRouter) (cmd : NwkCmdRrep)
    (pathCost senderAddr destAddr : ℕ) : MeshRouter × List MeshOutput :=
  if cmd.originator = router.address then rrepArrived router destAddr
  else
    (router, [zbNwkMeshSendRrep router cmd.rreqId cmd.originator cmd.responder
        pathCost senderAddr])

def zbNwkMeshRrepHandler (router : MeshRouter) (frame : MeshFrame) (cmd : NwkCmdRrep) :
    MeshRouter × List MeshOutput :=
  let (router, cost) := nwkCalcPathCost router frame.srcAddr
  let pathCost := (cost + cmd.pathCost) % 2 ^ 8
  match router.discoveryOf cmd.rreqId cmd.originator, router.routeTo cmd.responder with
  | some d, some r =>
      let disc := router.routeDiscTable d
      let route := router.routingTable r
      if pathCost > disc.residualCost then (router, [.freeBuf])
      else
        let router := router.setRouteDisc d
          { disc with
            residualCost := pathCost
            expirationTime := nwkRouteDiscoveryExpiry }
        let router := router.setRouting r
          { route with
            nextHopAddr := nwkGetMacSourceAddr router frame
            status :=
              if route.status = .discoveryUnderway then .validationUnderway
              else route.status }
        rrepPropagate router cmd pathCost disc.senderAddr route.destAddr
  | discEnt, routingEnt =>
      ((router.putRouteDisc discEnt).putRouting routingEnt, [.freeBuf])

/-- The loop of `zb_nwk_mesh_expiry_route_disc`, which ends when it has freed a
route. -/
def expiryLoop (router : MeshRouter) : List ℕ → MeshRouter × Bool
  | [] => (router, false)
  | i :: rest =>
      let disc := router.routeDiscTable i
      if disc.used then
        if disc.expirationTime ≠ 0 then
          expiryLoop (router.setRouteDisc i
              { disc with expirationTime := disc.expirationTime - 1 }) rest
        else
          let routeEnt := router.findRouting fun k =>
            (router.routingTable k).destAddr == (router.routeDiscTable k).destAddr &&
              (router.routingTable k).status != .active
          let router := router.putRouteDisc (some i)
          match routeEnt with
          | some k =>
              (({ router with
                  statusIndAddr := (router.routingTable k).destAddr }
                : MeshRouter).putRouting (some k), true)
          | none => expiryLoop router rest
      else expiryLoop router rest

def zbNwkMeshExpiryRouteDisc (router : MeshRouter) :
    MeshRouter × List MeshOutput :=
  let (router, failed) :=
    if router.routeDiscTableCnt ≠ 0 then
      expiryLoop router (List.range nwkRouteDiscoveryTableSize)
    else (router, false)
  (router, if failed then [.discoveryFailed] else [.scheduleExpiry])

end Zboss
