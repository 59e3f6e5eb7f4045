import Zboss.NeighborTable
import Zboss.PointerWalk
import Zboss.TreeNetwork

/-!
# Tree routing

The functions of `nwk_cr_tree_routing.c`, on the address and neighbor tables of
a router and its place in the tree, and the forwarding of a packet through a
network hop by hop.
-/

namespace Zboss

open PointerWalk

/-- What a router of a tree network uses to route: its tables, its place, and
`ZG->nwk.handle.parent`. -/
structure TreeRouter where
  zg : Globals
  nib : TreeNib
  parent : ℕ

/-- The row of the neighbor table for a short address, as
`zb_nwk_tree_routing_find_router` looks it up. -/
def neighborByAddress (zg : Globals) (address : ℕ) :
    Option (Globals × Option ℕ) := do
  let (addr, ret) ← zbAddressByShort zg.addr address false false
  let zg := { zg with addr := addr }
  match ret with
  | .ok ref =>
      let n := zg.neighbor.addrToNeighbor ref
      some (zg, if n ≠ noNeighbor then some n else none)
  | .error _ => some (zg, none)

/-- `lower_address` in the loop of `zb_nwk_tree_routing_find_router`. -/
def TreeNib.lowerAddress (nib : TreeNib) (i : ℕ) : ℕ :=
  (nib.cskip * i + 1) % 2 ^ 16

def TreeNib.upperAddress (nib : TreeNib) (i : ℕ) : ℕ :=
  (nib.lowerAddress i + nib.cskip) % 2 ^ 16

def zbNwkTreeRoutingFindRouter (router : TreeRouter) (destAddress : ℕ) :
    Option (Globals × Option ℕ) := do
  let (zg, ret) ← neighborByAddress router.zg destAddress
  match ret with
  | some n => some (zg, some n)
  | none =>
      match (List.range router.nib.maxRouters).find? (fun i =>
          decide (router.nib.lowerAddress i < destAddress) &&
            decide (destAddress < router.nib.upperAddress i)) with
      | some i => neighborByAddress zg (router.nib.lowerAddress i)
      | none => some (zg, none)

def zbNwkTreeRoutingRoute (router : TreeRouter) (destAddress : ℕ) :
    Option (Globals × Option ℕ) := do
  let nib := router.nib
  let cskipParent := if nib.depth ≠ 0 then zbNwkDaaCalcCskip nib (nib.depth - 1) else 0
  let routeDown :=
    destAddress > nib.macShortAddress ∧ destAddress < nib.macShortAddress + cskipParent
  if nib.macShortAddress = 0 ∨ routeDown then zbNwkTreeRoutingFindRouter router destAddress
  else do
    let (zg, ret) ← zbNwkNeighborGet router.zg router.parent false
    some (zg, ret.toOption)

def rowAddress (zg : Globals) (n : ℕ) : ℕ :=
  (zg.addr.addrMap (zg.neighbor.baseNeighbor n).addrRef).addr

def TreeRouter.nextHop (router : TreeRouter) (destAddress : ℕ) : Option ℕ := do
  let (zg, ret) ← zbNwkTreeRoutingRoute router destAddress
  let n ← ret
  some (rowAddress zg n)

def TreeNetwork.find (net : TreeNetwork) (address : ℕ) : Option ℕ :=
  net.findIdx? fun dev => decide (dev.nib.macShortAddress = address)

def TreeNetwork.hop (net : TreeNetwork) (routers : ℕ → TreeRouter) (destAddress x : ℕ) :
    Option ℕ := do
  let dev ← net[x]?
  if dev.isRouter then do
    let address ← (routers x).nextHop destAddress
    net.find address
  else dev.parent

/-- The router knows its place, and finds its parent and all its children in
the neighbor table by their addresses. -/
structure KnowsNeighbors (net : TreeNetwork) (r : ℕ) (router : TreeRouter) : Prop where
  nib : ∃ dev, net[r]? = some dev ∧ dev.isRouter = true ∧ router.nib = dev.nib
  rows : ∀ ref, router.zg.neighbor.addrToNeighbor ref ≠ noNeighbor →
    (router.zg.neighbor.baseNeighbor (router.zg.neighbor.addrToNeighbor ref)).addrRef = ref
  parent : ∀ (dev : TreeDevice) (p : ℕ) (above : TreeDevice),
    net[r]? = some dev → dev.parent = some p → net[p]? = some above →
      router.zg.neighbor.addrToNeighbor router.parent ≠ noNeighbor ∧
        (router.zg.addr.addrMap router.parent).addr = above.nib.macShortAddress
  children : ∀ (c : ℕ) (child : TreeDevice), net[c]? = some child → child.parent = some r →
    ∃ ref, shortSearch router.zg.addr child.nib.macShortAddress = some ref ∧
      router.zg.neighbor.addrToNeighbor ref ≠ noNeighbor

/-- The neighbor to which a packet for `d` should go: the child in whose
subtree `d` is, or the parent if there is none. -/
inductive TreeNetwork.NextHop (net : TreeNetwork) (r d : ℕ) : ℕ → Prop
  | down {c : ℕ} {child : TreeDevice} (hchild : net[c]? = some child)
      (hparent : child.parent = some r) (hbelow : net.Below c d) :
      NextHop net r d c
  | up {p : ℕ} {dev : TreeDevice} (hdev : net[r]? = some dev)
      (hparent : dev.parent = some p) (hnot : ¬ net.Below r d) :
      NextHop net r d p

def TreeNetwork.RoutesRight (net : TreeNetwork) (router : TreeRouter) (r d : ℕ) : Prop :=
  ∃ dest h next, net[d]? = some dest ∧ net.NextHop r d h ∧ net[h]? = some next ∧
      router.nextHop dest.nib.macShortAddress = some next.nib.macShortAddress

/-- All routers send right to `d`, and packets from all devices arrive there
within two hops for each level of the tree. -/
structure TreeNetwork.DeliversTo
    (net : TreeNetwork) (routers : ℕ → TreeRouter) (maxDepth d : ℕ) :
    Prop where
  right : ∀ r dev, net[r]? = some dev → dev.isRouter = true → r ≠ d →
    net.RoutesRight (routers r) r d
  arrives : ∀ dest, net[d]? = some dest → ∀ x, x < net.length →
    Arrives (net.hop routers dest.nib.macShortAddress) d (2 * maxDepth) x

end Zboss
