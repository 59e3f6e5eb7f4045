import Zboss.TransitionSystem
import Zboss.TreeAddressing

/-!
# Distributed address assignment

`zb_nwk_daa_calc_cskip`, the two macros for the addresses of children and
`zb_nwk_accept_child`, and the network which grows from a coordinator when
devices join.  Numbers of 16 bits wrap around; those of type `int` are taken to
be large enough.
-/

namespace Zboss

open TransitionSystem

/-- The parts of `ZG->nwk.nib` and of the MAC's PIB for a tree network. -/
structure TreeNib where
  maxChildren : ℕ
  maxRouters : ℕ
  maxDepth : ℕ
  depth : ℕ
  cskip : ℕ
  routerChildNum : ℕ
  edChildNum : ℕ
  macShortAddress : ℕ
  macAssociationPermit : Bool
  deriving DecidableEq

def cskipPower (maxRouters : ℕ) : ℕ → ℕ
  | 0 => 1
  | n + 1 => cskipPower maxRouters n * maxRouters % 2 ^ 16

def zbNwkDaaCalcCskip (nib : TreeNib) (depth : ℕ) : ℕ :=
  let maxChildren : ℤ := nib.maxChildren
  let maxRouters : ℤ := nib.maxRouters
  if nib.maxRouters = 1 then
    ((1 + maxChildren * ((nib.maxDepth : ℤ) - depth - 1)) % 2 ^ 16).toNat
  else
    let tmp : ℤ := cskipPower nib.maxRouters (nib.maxDepth - depth - 1)
    let num := 1 + maxChildren - maxRouters - maxChildren * tmp
    let den := 1 - maxRouters
    (num.tdiv den % 2 ^ 16).toNat

/-- `ZB_NWK_ROUTER_ADDRESS_ASSIGN` -/
def TreeNib.routerAddress (nib : TreeNib) : ℕ :=
  (nib.macShortAddress + nib.routerChildNum * nib.cskip + 1) % 2 ^ 16

/-- `ZB_NWK_ED_ADDRESS_ASSIGN`, before it is cut to 16 bits. -/
def TreeNib.edAddressSum (nib : TreeNib) : ℕ :=
  nib.macShortAddress + nib.maxRouters * nib.cskip + nib.edChildNum + 1

def TreeNib.edAddress (nib : TreeNib) : ℕ := nib.edAddressSum % 2 ^ 16

/-- `zb_mac_capability_info_t`: a device which is no router is an end
device. -/
structure MacCapability where
  isRouter : Bool
  allocateAddress : Bool

def noShortAddress : ℕ := 0xFFFE

def TreeNib.admitChild (nib : TreeNib) (capability : MacCapability) :
    TreeNib × Option ℕ :=
  if nib.maxChildren > nib.edChildNum + nib.routerChildNum ∧ nib.depth < nib.maxDepth then
    if capability.isRouter then
      if nib.routerChildNum < nib.maxRouters then
        ({ nib with routerChildNum := nib.routerChildNum + 1 },
          some (if capability.allocateAddress then nib.routerAddress
              else noShortAddress))
      else (nib, none)
    else
      ({ nib with edChildNum := nib.edChildNum + 1 },
        some (if capability.allocateAddress then nib.edAddress
            else noShortAddress))
  else (nib, none)

/-- `known` is the short address of a neighbor with the same address and
capabilities. -/
def zbNwkAcceptChild (nib : TreeNib) (known : Option ℕ) (capability : MacCapability)
    (registered : Bool) : TreeNib × Option ℕ :=
  let (nib, address) :=
    match known with
    | some address => (nib, some address)
    | none =>
        let (nib, address) := nib.admitChild capability
        (nib, if registered then address else none)
  if nib.macAssociationPermit ∧ nib.routerChildNum + nib.edChildNum ≥ nib.maxChildren then
    ({ nib with macAssociationPermit := false }, address)
  else (nib, address)

structure TreeDevice where
  nib : TreeNib
  isRouter : Bool
  parent : Option ℕ
  deriving DecidableEq

abbrev TreeNetwork := List TreeDevice

def coordinatorNib (maxChildren maxRouters maxDepth : ℕ) : TreeNib :=
  let nib : TreeNib :=
    { maxChildren := maxChildren
      maxRouters := maxRouters
      maxDepth := maxDepth
      depth := 0
      cskip := 0
      routerChildNum := 0
      edChildNum := 0
      macShortAddress := 0
      macAssociationPermit := true }
  { nib with cskip := zbNwkDaaCalcCskip nib 0 }

def TreeNetwork.formed (maxChildren maxRouters maxDepth : ℕ) : TreeNetwork :=
  [{ nib := coordinatorNib maxChildren maxRouters maxDepth
     isRouter := true
     parent := none }]

def joinedNib (parent : TreeNib) (address : ℕ) : TreeNib :=
  { parent with
    depth := parent.depth + 1
    cskip := zbNwkDaaCalcCskip parent (parent.depth + 1)
    routerChildNum := 0
    edChildNum := 0
    macShortAddress := address
    macAssociationPermit := true }

structure JoinCall where
  parent : ℕ
  capability : MacCapability
  registered : Bool

def JoinCall.apply (net : TreeNetwork) (call : JoinCall) :
    Option TreeNetwork := do
  let dev ← net[call.parent]?
  if dev.isRouter then
    let (nib, address) := zbNwkAcceptChild dev.nib none call.capability call.registered
    let net := net.set call.parent { dev with nib := nib }
    match address with
    | some address =>
        if call.capability.allocateAddress then
          some (net ++
              [{ nib := joinedNib dev.nib address
                 isRouter := call.capability.isRouter
                 parent := some call.parent }])
        else some net
    | none => some net
  else none

inductive TreeNetwork.Below (net : TreeNetwork) (c : ℕ) : ℕ → Prop
  | self : Below net c c
  | child {d p : ℕ} {dev : TreeDevice} (hdev : net[d]? = some dev)
      (hparent : dev.parent = some p) (hbelow : Below net c p) :
      Below net c d

/-- No address is assigned twice, and those in the subtree of a router child
are in its block of the parent's `cskip` addresses. -/
structure TreeNetwork.AddressesSound (net : TreeNetwork) : Prop where
  nodup : (net.map fun dev => dev.nib.macShortAddress).Nodup
  block : ∀ c child p parent, net[c]? = some child → child.isRouter = true →
    child.parent = some p → net[p]? = some parent →
      ∀ d dev, net.Below c d → net[d]? = some dev →
        child.nib.macShortAddress ≤ dev.nib.macShortAddress ∧ dev.nib.macShortAddress <
            child.nib.macShortAddress + parent.nib.cskip

end Zboss
