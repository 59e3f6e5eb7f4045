import Zboss.RejoinIndications

/-!
# Failed associations

`zb_mlme_comm_status_indication` in `nwk_join.c`, which reports how the response
to an association was delivered.  A failure takes the child out of the tables,
but the counter of children keeps it, and the buffer of the indication stays
with nobody.
-/

namespace Zboss

open Option

inductive CommStatusAddr where
  | short (address : ℕ)
  | long (address : IeeeAddr)

structure CommStatusIndication where
  dstAddr : CommStatusAddr
  success : Bool

/-- `scheduled` are the callbacks `zb_nlme_join_indication` to which the buffer
is passed. -/
structure CommStatusResult where
  router : RejoinRouter
  scheduled : List JoinIndication

def CommStatusAddr.ref (zg : Globals) :
    CommStatusAddr → Option (AddrGlobals × Except RetError ℕ)
  | .long address => zbAddressByIeee zg.addr address false false
  | .short address => zbAddressByShort zg.addr address false false

/-- The indication to the application about the neighbor in row `n`. -/
def associationIndication (zg : Globals) (ref n : ℕ) : JoinIndication where
  networkAddress := (zg.addr.addrMap ref).addr
  extendedAddress := zbIeeeAddrDecompress zg.addr (zg.addr.addrMap ref).ieeeAddr
  isRouter := (zg.neighbor.baseNeighbor n).deviceType = .router
  rxOnWhenIdle := (zg.neighbor.baseNeighbor n).rxOnWhenIdle
  secureRejoin := false

def zbMlmeCommStatusIndication (router : RejoinRouter) (request : CommStatusIndication) :
    Option CommStatusResult := do
  let (addr, ret) ← request.dstAddr.ref router.zg
  let router := { router with zg := { router.zg with addr := addr } }
  match ret with
  | .ok addrRef => do
      let (zg, ret) ← zbNwkNeighborGet router.zg addrRef false
      match ret with
      | .ok n =>
          if request.success then some ⟨router, [associationIndication zg addrRef n]⟩
          else some ⟨{ router with zg := forgetDevice zg addrRef }, []⟩
      | .error _ => some ⟨router, []⟩
  | .error _ => some ⟨router, []⟩

namespace CommStatusResult

def disposals (result : CommStatusResult) : ℕ := result.scheduled.length

end CommStatusResult

def CommStatusAddr.search (zg : Globals) : CommStatusAddr → Option ℕ
  | .long address =>
      (zbIeeeAddrCompress zg.addr address).bind
        fun (addr, compressed) => ieeeSearch addr compressed
  | .short address => shortSearch zg.addr address

def CommStatusAddr.Known (zg : Globals) (dstAddr : CommStatusAddr) : Prop :=
  ∃ ref ∈ dstAddr.search zg, zg.neighbor.addrToNeighbor ref ≠ noNeighbor

section Buffer

variable {zg : Globals} {dstAddr : CommStatusAddr} {addr : AddrGlobals}
  {ret : Except RetError ℕ}

theorem lockResult_false {g g' : AddrGlobals} {r : Except RetError ℕ}
    (hresult : lockResult false g ret = some (g', r)) : r = ret := by
  obtain ⟨hret, -⟩ := lockResult_eq_some hresult
  exact hret

theorem CommStatusAddr.search_of_ref (href : dstAddr.ref zg = some (addr, ret)) :
    dstAddr.search zg = ret.toOption := by
  cases dstAddr with
  | short address =>
    unfold ref zbAddressByShort at href
    dsimp only at href
    dsimp only [search]
    split at href
    · rename_i found hfound
      rw [hfound, lockResult_false href]
      rfl
    · rename_i hfound
      obtain ⟨-, rfl⟩ := some_pair_inj href
      rw [hfound]
      rfl
  | long address =>
    obtain ⟨⟨g, compressed⟩, hcompress, hrest⟩ := bind_eq_some_iff.mp href
    dsimp only [search]
    rw [hcompress, bind_some]
    dsimp only at hrest ⊢
    split at hrest
    · rename_i found hfound
      rw [hfound, lockResult_false hrest]
      rfl
    · rename_i hfound
      obtain ⟨-, rfl⟩ := some_pair_inj hrest
      rw [hfound]
      rfl

theorem CommStatusAddr.neighbor_of_ref (href : dstAddr.ref zg = some (addr, ret)) :
    dstAddr.Known zg ↔
      ∃ ref, ret = .ok ref ∧ zg.neighbor.addrToNeighbor ref ≠ noNeighbor := by
  unfold Known
  rw [search_of_ref href]
  cases ret with
  | ok ref => simp [Except.toOption]
  | error err => simp [Except.toOption]

theorem disposals_zbMlmeCommStatusIndication
    {router : RejoinRouter} {request : CommStatusIndication}
    {result : CommStatusResult}
    (hcall : zbMlmeCommStatusIndication router request = some result) :
    result.disposals = 1 ↔ request.success = true ∧ request.dstAddr.Known router.zg := by
  obtain ⟨⟨addr, ret⟩, href, hrest⟩ := bind_eq_some_iff.mp hcall
  rw [CommStatusAddr.neighbor_of_ref href]
  cases ret with
  | error err =>
    obtain rfl := some.inj hrest
    simp [CommStatusResult.disposals]
  | ok ref =>
    obtain ⟨⟨zg, row⟩, hget, hlast⟩ := bind_eq_some_iff.mp hrest
    have hrow := (zbNwkNeighborGet_find hget).2
    cases row with
    | error err =>
      obtain rfl := some.inj hlast
      have habsent : router.zg.neighbor.addrToNeighbor ref = noNeighbor := by
        by_contra hpresent
        rw [if_neg hpresent] at hrow
        contradiction
      simp [CommStatusResult.disposals, habsent]
    | ok n =>
      have hpresent : router.zg.neighbor.addrToNeighbor ref ≠ noNeighbor := by
        intro habsent
        rw [if_pos habsent] at hrow
        contradiction
      dsimp only at hlast
      cases hsuccess : request.success with
      | true =>
        rw [hsuccess] at hlast
        obtain rfl := some.inj hlast
        simp [CommStatusResult.disposals, hpresent]
      | false =>
        rw [hsuccess] at hlast
        obtain rfl := some.inj hlast
        simp [CommStatusResult.disposals]

end Buffer

structure RejoinRouter.NewlyAccepts (router : RejoinRouter) (deviceAddress : IeeeAddr)
    (capability : RejoinCapability) (lqi : UInt8) (accepted : RejoinRouter) :
    Prop where
  unknown : ∃ zg, knownChild router.zg deviceAddress capability = some (zg, none)
  accepts : ∃ address,
    router.acceptChild deviceAddress capability lqi = some (accepted, some address)

structure RejoinRouter.RolledBack (before after : RejoinRouter) : Prop where
  edChildNum : after.nib.edChildNum = before.nib.edChildNum
  routerChildNum : after.nib.routerChildNum = before.nib.routerChildNum
  neighbors : ∀ ref,
    after.zg.neighbor.addrToNeighbor ref = before.zg.neighbor.addrToNeighbor ref
  rows : ∀ n, (before.zg.neighbor.baseNeighbor n).used = true ∨
      (after.zg.neighbor.baseNeighbor n).used = true →
    after.zg.neighbor.baseNeighbor n = before.zg.neighbor.baseNeighbor n
  baseNeighborUsed :
    after.zg.neighbor.baseNeighborUsed = before.zg.neighbor.baseNeighborUsed
  used : ∀ ref, (after.zg.addr.addrMap ref).used = (before.zg.addr.addrMap ref).used
  locks : ∀ ref, (before.zg.addr.addrMap ref).used = true →
    (after.zg.addr.addrMap ref).lockCnt = (before.zg.addr.addrMap ref).lockCnt

section Rollback

variable {router accepted : RejoinRouter} {deviceAddress : IeeeAddr}
  {capability : RejoinCapability} {lqi : UInt8}

def TreeNib.childNum (nib : TreeNib) : ℕ := nib.edChildNum + nib.routerChildNum

theorem childNum_admitChild {nib : TreeNib} {cap : MacCapability} {address : ℕ}
    (hjoinable : (nib.admitChild cap).2 = some address) :
    (nib.admitChild cap).1.childNum = nib.childNum + 1 := by
  unfold TreeNib.admitChild at hjoinable ⊢
  unfold TreeNib.childNum
  by_cases hroom : nib.maxChildren > nib.edChildNum + nib.routerChildNum ∧
      nib.depth < nib.maxDepth
  · rw [if_pos hroom] at hjoinable ⊢
    by_cases hrouter : cap.isRouter = true
    · rw [if_pos hrouter] at hjoinable ⊢
      by_cases hrouters : nib.routerChildNum < nib.maxRouters
      · rw [if_pos hrouters]
        rfl
      · rw [if_neg hrouters] at hjoinable
        contradiction
    · rw [if_neg hrouter]
      exact Nat.add_right_comm ..
  · rw [if_neg hroom] at hjoinable
    contradiction

theorem childNum_zbNwkAcceptChild_new
    (nib : TreeNib) (cap : MacCapability) (registered : Bool) :
    (zbNwkAcceptChild nib none cap registered).1.childNum =
      (nib.admitChild cap).1.childNum := by
  unfold zbNwkAcceptChild
  dsimp only
  split <;> rfl

theorem RejoinRouter.NewlyAccepts.childNum
    (haccepts : router.NewlyAccepts deviceAddress capability lqi accepted) :
    accepted.nib.childNum = router.nib.childNum + 1 := by
  obtain ⟨⟨zg, hknown⟩, address, haccept⟩ := haccepts
  unfold acceptChild at haccept
  rw [hknown] at haccept
  simp only [bind_eq_bind, bind_some] at haccept
  split at haccept
  · rename_i admitted hjoinable
    obtain ⟨⟨zg₂, row⟩, -, hlast⟩ := bind_eq_some_iff.mp haccept
    cases row with
    | some n =>
      obtain ⟨rfl, -⟩ := some_pair_inj hlast
      rw [← childNum_admitChild hjoinable]
      exact childNum_zbNwkAcceptChild_new ..
    | none =>
      have hnone := (some_pair_inj hlast).2
      contradiction
  · have hnone := (some_pair_inj haccept).2
    contradiction

theorem nib_zbMlmeCommStatusIndication
    {request : CommStatusIndication} {result : CommStatusResult}
    (hcall : zbMlmeCommStatusIndication router request = some result) :
    result.router.nib = router.nib := by
  obtain ⟨⟨addr, ret⟩, -, hrest⟩ := bind_eq_some_iff.mp hcall
  cases ret with
  | error err =>
    obtain rfl := some.inj hrest
    rfl
  | ok ref =>
    obtain ⟨⟨zg, row⟩, -, hlast⟩ := bind_eq_some_iff.mp hrest
    cases row with
    | error err =>
      obtain rfl := some.inj hlast
      rfl
    | ok n =>
      dsimp only at hlast
      split at hlast
      · obtain rfl := some.inj hlast
        rfl
      · obtain rfl := some.inj hlast
        rfl

theorem not_rolledBack_of_newlyAccepts
    {request : CommStatusIndication} {result : CommStatusResult}
    (haccepts : router.NewlyAccepts deviceAddress capability lqi accepted)
    (hcall : zbMlmeCommStatusIndication accepted request = some result) :
    ¬ router.RolledBack result.router := by
  intro hback
  have hnib := nib_zbMlmeCommStatusIndication hcall
  have hcounted := haccepts.childNum
  have hsame : result.router.nib.childNum = router.nib.childNum :=
    congrArg₂ (· + ·) hback.edChildNum hback.routerChildNum
  rw [hnib, hcounted] at hsame
  exact Nat.succ_ne_self _ hsame

/-- No acceptance is undone, and of all indications only those about a known
device which has its response dispose of their buffers. -/
theorem failedAssociations_kept (router accepted : RejoinRouter) (deviceAddress : IeeeAddr)
    (capability : RejoinCapability) (lqi : UInt8)
    (request : CommStatusIndication) (result : CommStatusResult)
    (hcall : zbMlmeCommStatusIndication accepted request = some result) :
    (router.NewlyAccepts deviceAddress capability lqi accepted →
        request.success = false → ¬ router.RolledBack result.router) ∧
      (result.disposals = 1 ↔
        request.success = true ∧ request.dstAddr.Known accepted.zg) := by
  refine ⟨fun haccepts hfailed => ?_, disposals_zbMlmeCommStatusIndication hcall⟩
  obtain ⟨dstAddr, success⟩ := request
  obtain rfl : success = false := hfailed
  exact not_rolledBack_of_newlyAccepts haccepts hcall

def associatingDevice : IeeeAddr := ⟨⟨1, 0, 0⟩, ⟨1, 2, 0, 0, 0⟩⟩

def associatingCapability : RejoinCapability where
  isRouter := false
  allocateAddress := true
  rxOnWhenIdle := true

def failedAssociation : Option (RejoinRouter × CommStatusResult) := do
  let (accepted, _) ←
    RejoinRun.rejoinCoordinator.acceptChild associatingDevice associatingCapability 200
  let result ←
    zbMlmeCommStatusIndication accepted ⟨.long associatingDevice, false⟩
  some (accepted, result)

theorem failedAssociation_observed :
    (knownChild RejoinRun.rejoinCoordinator.zg associatingDevice
        associatingCapability).map Prod.snd = some none ∧
      (RejoinRun.rejoinCoordinator.acceptChild associatingDevice
        associatingCapability 200).map (·.2.isSome) = some true ∧
      failedAssociation.map (fun outcome =>
        (outcome.2.router.nib.edChildNum, outcome.2.disposals)) =
          some (1, 0) := by
  decide +kernel

theorem newlyAccepts_associatingDevice : ∃ accepted result,
      RejoinRun.rejoinCoordinator.NewlyAccepts associatingDevice
          associatingCapability 200 accepted ∧
        zbMlmeCommStatusIndication accepted
            ⟨.long associatingDevice, false⟩ = some result ∧
        result.router.nib.edChildNum = 1 ∧ result.disposals = 0 := by
  obtain ⟨hunknown, haddress, hfailed⟩ := failedAssociation_observed
  obtain ⟨⟨zg, known⟩, hknown, rfl⟩ := map_eq_some_iff.mp hunknown
  obtain ⟨⟨accepted, result⟩, houtcome, hobserved⟩ := map_eq_some_iff.mp hfailed
  unfold failedAssociation at houtcome
  obtain ⟨⟨accepted', address⟩, haccept, hrest⟩ := bind_eq_some_iff.mp houtcome
  obtain ⟨result', hcall, heq⟩ := bind_eq_some_iff.mp hrest
  obtain ⟨rfl, rfl⟩ := some_pair_inj heq
  rw [haccept] at haddress
  obtain ⟨s, rfl⟩ := isSome_iff_exists.mp (some.inj haddress)
  exact ⟨accepted', result', ⟨⟨zg, hknown⟩, s, haccept⟩, hcall, Prod.mk.inj hobserved⟩

/-- The child is still counted, and its indication is lost. -/
theorem failedAssociations_kept_singleDevice : ∃ accepted result,
      zbMlmeCommStatusIndication accepted ⟨.long associatingDevice, false⟩ = some result ∧
        ¬ RejoinRun.rejoinCoordinator.RolledBack result.router ∧
        (result.disposals = 1 ↔ false = true ∧
            (CommStatusAddr.long associatingDevice).Known accepted.zg) := by
  obtain ⟨accepted, result, haccepts, hcall, -⟩ := newlyAccepts_associatingDevice
  have hkept := failedAssociations_kept RejoinRun.rejoinCoordinator accepted
    associatingDevice associatingCapability 200
    ⟨.long associatingDevice, false⟩ result hcall
  exact ⟨accepted, result, hcall, hkept.1 haccepts rfl, hkept.2⟩

theorem not_rolledBack_singleDevice : ¬ ∀ accepted result,
      RejoinRun.rejoinCoordinator.NewlyAccepts associatingDevice
          associatingCapability 200 accepted →
        zbMlmeCommStatusIndication accepted
            ⟨.long associatingDevice, false⟩ = some result →
          RejoinRun.rejoinCoordinator.RolledBack result.router ∧ result.disposals = 1 := by
  intro hclaim
  obtain ⟨accepted, result, haccepts, hcall, hcount, -⟩ := newlyAccepts_associatingDevice
  have hback := (hclaim accepted result haccepts hcall).1.edChildNum
  rw [hcount] at hback
  contradiction

end Rollback

end Zboss
