import Zboss.MeshRouting
import Zboss.PointerWalk
import Zboss.TransitionSystem

/-!
# One route discovery in a network

Routers are known by their short addresses.  The copies of one route request
may arrive anywhere, in any order, many times or never, while neighbors and
link qualities change.
-/

namespace Zboss

open Function PointerWalk

structure SentRreq where
  sender : ℕ
  srcAddr : ℕ
  cmd : NwkCmdRreq

structure MeshNetwork where
  routers : ℕ → MeshRouter
  sent : List SentRreq

def sentRreqs (sender : ℕ) (outputs : List MeshOutput) : List SentRreq :=
  outputs.filterMap fun output =>
    match output with
    | .sendRreq cmd srcAddr _ _ => some ⟨sender, srcAddr, cmd⟩
    | _ => none

inductive MeshEvent where
  | originate (macSource : Option ℕ) (destAddr radius : ℕ)
  | deliver (copy receiver seqNum radius : ℕ)
  | changeNeighbors (router : ℕ) (zg : Globals) (reportConstantCost : Bool)

namespace MeshNetwork

def handled (net : MeshNetwork) (v : ℕ) (result : MeshRouter × List MeshOutput) :
    MeshNetwork where
  routers := update net.routers v result.1
  sent := net.sent ++ sentRreqs v result.2

@[simp] theorem handled_routers_self
    (net : MeshNetwork) (v : ℕ) (result : MeshRouter × List MeshOutput) :
    (net.handled v result).routers v = result.1 := by
  unfold handled
  exact update_self ..

@[simp] theorem handled_routers_of_ne (net : MeshNetwork) {v w : ℕ} (hw : w ≠ v)
    (result : MeshRouter × List MeshOutput) :
    (net.handled v result).routers w = net.routers w := by
  unfold handled
  exact update_of_ne hw ..

end MeshNetwork

def SentRreq.frame (rreq : SentRreq) (seqNum radius : ℕ) : MeshFrame :=
  ⟨some rreq.sender, rreq.srcAddr, seqNum, radius⟩

def MeshEvent.apply (originator rreqId : ℕ) (net : MeshNetwork) :
    MeshEvent → Option MeshNetwork
  | .originate macSource destAddr radius =>
      let router := net.routers originator
      if (router.rreqId + 1) % 2 ^ 8 = rreqId then
        some (net.handled originator
            (zbNwkMeshRouteDiscovery router macSource destAddr radius))
      else none
  | .deliver copy receiver seqNum radius => do
      let rreq ← net.sent[copy]?
      some (net.handled receiver (zbNwkMeshRreqHandler (net.routers receiver)
            (rreq.frame seqNum radius) rreq.cmd))
  | .changeNeighbors v zg reportConstantCost =>
      some
        { net with
          routers :=
            update net.routers v
              { net.routers v with
                zg := zg
                reportConstantCost := reportConstantCost } }

def MeshEvent.CostFits (net : MeshNetwork) : MeshEvent → Prop
  | .deliver copy receiver _ _ =>
      ∀ rreq : SentRreq, net.sent[copy]? = some rreq →
        (nwkCalcPathCost (net.routers receiver) rreq.srcAddr).2 + rreq.cmd.pathCost < 2 ^ 8
  | _ => True

def MeshRouter.discovery (router : MeshRouter) (originator rreqId : ℕ) :
    Option NwkRouteDiscovery :=
  (router.discoveryOf rreqId originator).map router.routeDiscTable

instance MeshEvent.decidableCostFits (net : MeshNetwork) (event : MeshEvent) :
    Decidable (event.CostFits net) :=
  match event with
  | .deliver copy _ _ _ => inferInstanceAs (Decidable (∀ rreq ∈ net.sent[copy]?, _ < _))
  | .originate _ _ _ => inferInstanceAs (Decidable True)
  | .changeNeighbors _ _ _ => inferInstanceAs (Decidable True)

namespace MeshNetwork

def discovery (net : MeshNetwork) (originator rreqId v : ℕ) :
    Option NwkRouteDiscovery :=
  (net.routers v).discovery originator rreqId

def recordedSender (net : MeshNetwork) (originator rreqId v : ℕ) : Option ℕ :=
  (net.discovery originator rreqId v).map NwkRouteDiscovery.senderAddr

def reversePath (net : MeshNetwork) (originator rreqId v : ℕ) : Option ℕ :=
  if v = originator then none else net.recordedSender originator rreqId v

/-- The way back from each router with a discovery entry ends at the
originator, and route replies which are forwarded follow it. -/
structure ReversePathsSound (net : MeshNetwork) (originator rreqId : ℕ) : Prop where
  acyclic : Acyclic (net.reversePath originator rreqId)
  arrives : ∀ v, net.discovery originator rreqId v ≠ none →
    Arrives (net.reversePath originator rreqId) originator 255 v
  replies : ∀ v frame cmd reply target radius,
    cmd.originator = originator → cmd.rreqId = rreqId → .sendRrep reply target radius ∈
          (zbNwkMeshRrepHandler (net.routers v) frame cmd).2 →
        net.reversePath originator rreqId v = some target

end MeshNetwork

end Zboss
