import Zboss.AddressTableFrames
import Zboss.NeighborRows
import Zboss.TreeAddressSafety
import Zboss.TreeRouting

/-!
# Delivery by tree routing

A router sends up exactly what is not below it. It sends down right if it finds
the child by the lower end of its block, which the source computes as if the
router had address 0.
-/

namespace Zboss

open Option List PointerWalk TreeAddressing TransitionSystem

theorem addr_of_shortSearch {g : AddrGlobals} {address ref : ℕ}
    (hsearch : shortSearch g address = some ref) :
    (g.addrMap ref).addr = address := by
  unfold shortSearch at hsearch
  dsimp only at hsearch
  split at hsearch
  · rename_i hfound
    obtain rfl := some.inj hsearch
    exact hfound.2.2.symm
  · contradiction

def neighborRow (zg : Globals) (address : ℕ) : Option ℕ := do
  let ref ← shortSearch zg.addr address
  let n := zg.neighbor.addrToNeighbor ref
  if n ≠ noNeighbor then some n else none

structure SameLookups (zg zg' : Globals) : Prop where
  neighbor : zg'.neighbor = zg.neighbor
  addr : SameTable zg.addr zg'.addr

theorem SameLookups.neighborRow
    {zg zg' : Globals} (hsame : SameLookups zg zg') (address : ℕ) :
    neighborRow zg' address = neighborRow zg address := by
  rw [Zboss.neighborRow, hsame.addr.shortSearch, hsame.neighbor]
  rfl

theorem SameLookups.rowAddress {zg zg' : Globals} (hsame : SameLookups zg zg') (n : ℕ) :
    rowAddress zg' n = rowAddress zg n := by
  rw [Zboss.rowAddress, hsame.neighbor, (hsame.addr.entry _).addr]
  rfl

theorem SameLookups.trans {zg zg' zg'' : Globals} (hfirst : SameLookups zg zg')
    (hsecond : SameLookups zg' zg'') : SameLookups zg zg'' :=
  ⟨hsecond.neighbor.trans hfirst.neighbor, hfirst.addr.trans hsecond.addr⟩

theorem neighborByAddress_eq (zg : Globals) (address : ℕ) :
    ∃ zg', neighborByAddress zg address =
        some (zg', neighborRow zg address) ∧ SameLookups zg zg' := by
  unfold neighborByAddress zbAddressByShort neighborRow
  cases hsearch : shortSearch zg.addr address with
  | none => exact ⟨zg, rfl, rfl, .refl zg.addr⟩
  | some ref =>
    exact ⟨{ zg with addr := zg.addr.markClock ref }, rfl, rfl,
      sameTable_markClock zg.addr ref⟩

def RowsAgree (zg : Globals) : Prop :=
  ∀ ref, zg.neighbor.addrToNeighbor ref ≠ noNeighbor →
    (zg.neighbor.baseNeighbor (zg.neighbor.addrToNeighbor ref)).addrRef = ref

theorem rowAddress_of_neighborRow {zg : Globals} (hrows : RowsAgree zg) {address n : ℕ}
    (hrow : neighborRow zg address = some n) : rowAddress zg n = address := by
  unfold neighborRow at hrow
  obtain ⟨ref, hsearch, hn⟩ := bind_eq_some_iff.mp hrow
  dsimp only at hn
  split at hn
  · rename_i hknown
    obtain rfl := some.inj hn
    rw [rowAddress, hrows ref hknown, addr_of_shortSearch hsearch]
  · contradiction

theorem map_rowAddress_neighborRow {zg : Globals} (hrows : RowsAgree zg) (address : ℕ) :
    (neighborRow zg address).map (rowAddress zg) =
      if (neighborRow zg address).isSome then some address else none := by
  cases hrow : neighborRow zg address with
  | none => rfl
  | some n => exact congrArg some (rowAddress_of_neighborRow hrows hrow)

namespace TreeRouter

/-- The child router in whose block `zb_nwk_tree_routing_find_router` looks for
an address. -/
def blockIndex (router : TreeRouter) (destAddress : ℕ) : Option ℕ :=
  (List.range router.nib.maxRouters).find? fun i =>
    decide (router.nib.lowerAddress i < destAddress) &&
      decide (destAddress < router.nib.upperAddress i)

def knows (router : TreeRouter) (address : ℕ) : Bool :=
  (neighborRow router.zg address).isSome

/-- The address of the neighbor which `zb_nwk_tree_routing_find_router`
finds. -/
def downHop (router : TreeRouter) (destAddress : ℕ) : Option ℕ :=
  if router.knows destAddress then some destAddress
  else do
    let i ← router.blockIndex destAddress
    if router.knows (router.nib.lowerAddress i) then some (router.nib.lowerAddress i)
    else none

def cskipParent (router : TreeRouter) : ℕ :=
  if router.nib.depth ≠ 0 then zbNwkDaaCalcCskip router.nib (router.nib.depth - 1)
  else 0

def GoesDown (router : TreeRouter) (destAddress : ℕ) : Prop :=
  router.nib.macShortAddress = 0 ∨ destAddress > router.nib.macShortAddress ∧
      destAddress < router.nib.macShortAddress + router.cskipParent

end TreeRouter

theorem zbNwkTreeRoutingFindRouter_eq
    {router : TreeRouter} (hrows : RowsAgree router.zg) (destAddress : ℕ) :
    ∃ zg' ret, zbNwkTreeRoutingFindRouter router destAddress =
        some (zg', ret) ∧ SameLookups router.zg zg' ∧
      ret.map (rowAddress router.zg) = router.downHop destAddress := by
  obtain ⟨zg₁, hfirst, hsame₁⟩ := neighborByAddress_eq router.zg destAddress
  unfold zbNwkTreeRoutingFindRouter
  rw [hfirst]
  cases hexact : neighborRow router.zg destAddress with
  | some n =>
    refine ⟨zg₁, some n, rfl, hsame₁, ?_⟩
    rw [TreeRouter.downHop, TreeRouter.knows, hexact]
    exact congrArg some (rowAddress_of_neighborRow hrows hexact)
  | none =>
    rw [TreeRouter.downHop, TreeRouter.knows, hexact]
    cases hindex : router.blockIndex destAddress with
    | none =>
      refine ⟨zg₁, none, ?_, hsame₁, rfl⟩
      unfold TreeRouter.blockIndex at hindex
      simp only [bind_eq_bind, bind_some, hindex]
    | some i =>
      obtain ⟨zg₂, hsecond, hsame₂⟩ := neighborByAddress_eq zg₁ (router.nib.lowerAddress i)
      rw [hsame₁.neighborRow] at hsecond
      refine ⟨zg₂, neighborRow router.zg (router.nib.lowerAddress i), ?_,
        hsame₁.trans hsame₂, ?_⟩
      · unfold TreeRouter.blockIndex at hindex
        simp only [bind_eq_bind, bind_some, hindex, hsecond]
      · simp only [isSome_none, Bool.false_eq_true, if_false, bind_eq_bind, bind_some]
        exact map_rowAddress_neighborRow hrows _

theorem nextHop_down {router : TreeRouter} (hrows : RowsAgree router.zg) {destAddress : ℕ}
    (hdown : router.GoesDown destAddress) :
    router.nextHop destAddress = router.downHop destAddress := by
  obtain ⟨zg', ret, hfind, hsame, hret⟩ := zbNwkTreeRoutingFindRouter_eq hrows destAddress
  have hroute : zbNwkTreeRoutingRoute router destAddress =
      some (zg', ret) := by
    unfold zbNwkTreeRoutingRoute
    rw [← hfind]
    exact if_pos hdown
  rw [TreeRouter.nextHop, hroute, ← hret]
  cases ret with
  | none => rfl
  | some n => exact congrArg some (hsame.rowAddress n)

theorem nextHop_up {router : TreeRouter} (hrows : RowsAgree router.zg)
    (hparent : router.zg.neighbor.addrToNeighbor router.parent ≠ noNeighbor)
    {destAddress : ℕ} (hup : ¬ router.GoesDown destAddress) :
    router.nextHop destAddress =
      some (router.zg.addr.addrMap router.parent).addr := by
  have hroute : zbNwkTreeRoutingRoute router destAddress = some (router.zg,
        some (router.zg.neighbor.addrToNeighbor router.parent)) := by
    unfold zbNwkTreeRoutingRoute
    have hget : zbNwkNeighborGet router.zg router.parent false = some (router.zg,
          .ok (router.zg.neighbor.addrToNeighbor router.parent)) := by
      exact if_neg hparent
    refine (if_neg hup).trans ?_
    rw [hget]
    rfl
  rw [TreeRouter.nextHop, hroute]
  change some (rowAddress _ _) = _
  rw [rowAddress, hrows _ hparent]

section Places

variable {cm rm lm : ℕ} {net : TreeNetwork} {placed : List (TreeDevice × List Slot)}

section

variable (hplacement : Placement cm rm lm net placed)

include hplacement

theorem Placement.index_eq {i j : ℕ}
    {entry other : TreeDevice × List Slot} (hi : placed[i]? = some entry)
    (hj : placed[j]? = some other) (hpath : entry.2 = other.2) : i = j := by
  have hlt : i < (placed.map Prod.snd).length := by
    rw [length_map]
    exact (List.getElem?_eq_some_iff.mp hi).1
  apply (List.getElem?_inj hlt hplacement.unique).mp
  rw [List.getElem?_map, List.getElem?_map, hi, hj]
  exact congrArg some hpath

theorem Placement.below_of_prefix {c d : ℕ}
    {above entry : TreeDevice × List Slot} {rest : List Slot}
    (habove : placed[c]? = some above) (hentry : placed[d]? = some entry)
    (hpath : entry.2 = above.2 ++ rest) : net.Below c d := by
  induction rest using List.reverseRecOn generalizing d entry with
  | nil =>
    rw [append_nil] at hpath
    obtain rfl := hplacement.index_eq habove hentry hpath.symm
    exact .self
  | append_singleton rest slot ih =>
    have hmem := mem_of_getElem? hentry
    cases hparent : entry.1.parent with
    | none =>
      have hroot := hplacement.rooted entry hmem hparent
      rw [hpath, ← append_assoc] at hroot
      exact absurd hroot (append_ne_nil_of_right_ne_nil _ (cons_ne_nil _ _))
    | some p =>
      obtain ⟨between, slot', hbetween, -, hslot⟩ := hplacement.parent entry hmem p hparent
      rw [hpath, ← append_assoc, append_singleton_inj] at hslot
      exact .child (hplacement.device hentry) hparent (ih hbetween hslot.1.symm)

theorem Placement.below_iff_block {r d : ℕ}
    {router dest : TreeDevice × List Slot} (hr : placed[r]? = some router)
    (hd : placed[d]? = some dest) (hisRouter : router.1.isRouter = true)
    (hdepth : router.1.nib.depth ≠ 0) :
    net.Below r d ↔ router.1.nib.macShortAddress ≤ dest.1.nib.macShortAddress ∧
        dest.1.nib.macShortAddress < router.1.nib.macShortAddress +
            blockSize rm (cm - rm) (lm - router.1.nib.depth) := by
  have hrl := hplacement.located router (mem_of_getElem? hr)
  have hdl := hplacement.located dest (mem_of_getElem? hd)
  have hat := hrl.router hisRouter
  obtain ⟨slots, hslots, hlt, hlength⟩ := hat.inner
  have hle : slots.length ≤ lm := hlength ▸ hat.depth
  have hne : slots ≠ [] := by
    rintro rfl
    exact hdepth hlength.symm
  rw [hdl.address, hrl.address, hslots, ← hlength]
  constructor
  · intro hbelow
    obtain ⟨rest, hrest⟩ := hplacement.below hbelow hr hd
    have hplace := hdl.place
    rw [hrest, hslots] at hplace ⊢
    have hinside := offset_lt_blockSize (hplace.valid_below hne hlt hle)
    rw [offset_innerPath_append hle]
    omega
  · rintro ⟨hlow, hhigh⟩
    rcases hdl.place with hvalid | ⟨j, hleaf, hpos, -⟩
    · obtain ⟨rest, hrest⟩ :=
        exists_below_of_offset hlt hle hvalid hlow hhigh
      exact hplacement.below_of_prefix hr hd (hslots ▸ hrest)
    · -- behind the last block there are only end devices of the coordinator
      by_cases hj : j < cm - rm
      · have hvalid : Valid rm (cm - rm) lm dest.2 := by
          obtain ⟨k, rfl⟩ := Nat.exists_eq_add_one_of_ne_zero hpos.ne'
          rw [hleaf]
          exact ⟨hj, rfl⟩
        obtain ⟨rest, hrest⟩ := exists_below_of_offset hlt hle hvalid hlow hhigh
        exact hplacement.below_of_prefix hr hd (hslots ▸ hrest)
      · have hblock := @block_le_blockSize rm (cm - rm) lm slots hlt hle
        obtain ⟨k, rfl⟩ := Nat.exists_eq_add_one_of_ne_zero hpos.ne'
        rw [hleaf, offset, slotOffset, offset_nil] at hhigh
        rw [blockSize] at hblock
        omega

end

theorem Placement.below_of_root (hplacement : Placement cm rm lm net placed) {r d : ℕ}
    {router dest : TreeDevice × List Slot} (hr : placed[r]? = some router)
    (hd : placed[d]? = some dest) (hroot : router.2 = []) :
    net.Below r d :=
  hplacement.below_of_prefix hr hd (by rw [hroot]; rfl)

section

variable (hrm : 1 ≤ rm) (hcm : rm ≤ cm) (hfit : blockSize rm (cm - rm) lm ≤ 0xFFF8)

include hrm hcm hfit

theorem cskipParent_eq {router : TreeRouter} {path : List Slot}
    (hat : RouterAt cm rm lm router.nib path) (hdepth : router.nib.depth ≠ 0) :
    router.cskipParent =
      blockSize rm (cm - rm) (lm - router.nib.depth) := by
  have hlevel : lm - (router.nib.depth - 1) - 1 = lm - router.nib.depth := by
    have hle := hat.depth
    omega
  have heq := @zbNwkDaaCalcCskip_eq router.nib (router.nib.depth - 1)
  rw [hat.maxRouters, hat.maxChildren, hat.maxDepth, hlevel] at heq
  rw [TreeRouter.cskipParent, if_pos hdepth]
  apply heq hrm hcm
  · have hle := hat.depth
    omega
  · refine Nat.lt_of_le_of_lt (blockSize_mono hrm (Nat.sub_le _ _)) ?_
    exact Nat.lt_of_le_of_lt hfit (by decide)

theorem goesDown_iff_below (hplacement : Placement cm rm lm net placed) {r d : ℕ}
    {router : TreeRouter} {dev dest : TreeDevice} {path dpath : List Slot}
    (hr : placed[r]? = some (dev, path)) (hisRouter : dev.isRouter = true)
    (hnib : router.nib = dev.nib) (hd : placed[d]? = some (dest, dpath))
    (hne : r ≠ d) :
    router.GoesDown dest.nib.macShortAddress ↔ net.Below r d := by
  have hrl := hplacement.located _ (mem_of_getElem? hr)
  have hdl := hplacement.located _ (mem_of_getElem? hd)
  have hat := hrl.router hisRouter
  have haddress := hrl.address
  dsimp only at hat haddress
  obtain ⟨slots, hslots, hlt, hlength⟩ := hat.inner
  by_cases hdepth : dev.nib.depth = 0
  · -- the coordinator
    rw [hdepth] at hlength
    obtain rfl := length_eq_zero_iff.mp hlength
    have hbelow := hplacement.below_of_root hr hd hslots
    refine iff_of_true (Or.inl ?_) hbelow
    rw [hnib, haddress, hslots]
    exact offset_nil
  · have hblock := hplacement.below_iff_block hr hd hisRouter hdepth
    have hzero : dev.nib.macShortAddress ≠ 0 := by
      intro hzero
      rw [haddress, ← @offset_nil rm (cm - rm) lm] at hzero
      have hpath := hrl.place.injective (Or.inl valid_nil) hzero
      rw [hslots] at hpath
      have hnil := congrArg length hpath
      rw [length_innerPath, hlength] at hnil
      exact hdepth hnil
    have hother : dest.nib.macShortAddress ≠ dev.nib.macShortAddress := by
      intro hsame
      rw [haddress, hdl.address] at hsame
      have hpath := hdl.place.injective hrl.place hsame
      exact hne (hplacement.index_eq hr hd hpath.symm)
    have hskip := cskipParent_eq hrm hcm hfit (hnib ▸ hat) (hnib ▸ hdepth)
    rw [hnib] at hskip
    rw [hblock, TreeRouter.GoesDown, hnib, hskip]
    dsimp only
    omega

end

theorem TreeNetwork.Below.exists_child {r d : ℕ} (hbelow : net.Below r d) (hne : r ≠ d) :
    ∃ c child, net[c]? = some child ∧ child.parent = some r ∧ net.Below c d := by
  induction hbelow with
  | self => exact absurd rfl hne
  | @child d p dev hdev hparent hbelow ih =>
    by_cases hp : r = p
    · subst hp
      exact ⟨d, dev, hdev, hparent, .self⟩
    · obtain ⟨c, child, hchild, hr, hc⟩ := ih hp
      exact ⟨c, child, hchild, hr, .child hdev hparent hc⟩

theorem Placement.child_path (hplacement : Placement cm rm lm net placed) {c r : ℕ}
    {child : TreeDevice} {cpath : List Slot}
    {router : TreeDevice × List Slot}
    (hc : placed[c]? = some (child, cpath))
    (hparent : child.parent = some r) (hr : placed[r]? = some router) :
    router.1.isRouter = true ∧ ∃ slot, cpath = router.2 ++ [slot] := by
  obtain ⟨above, slot, habove, hisRouter, hpath⟩ :=
    hplacement.parent _ (mem_of_getElem? hc) r hparent
  rw [hr] at habove
  obtain rfl := some.inj habove
  exact ⟨hisRouter, slot, hpath⟩

theorem Placement.child_unique (hplacement : Placement cm rm lm net placed) {c c' r d : ℕ}
    {child child' dev dest : TreeDevice} (hc : net[c]? = some child)
    (hc' : net[c']? = some child') (hr : net[r]? = some dev)
    (hd : net[d]? = some dest) (hparent : child.parent = some r)
    (hparent' : child'.parent = some r) (hbelow : net.Below c d)
    (hbelow' : net.Below c' d) : c = c' := by
  obtain ⟨cpath, hcp⟩ := hplacement.entry hc
  obtain ⟨cpath', hcp'⟩ := hplacement.entry hc'
  obtain ⟨path, hrp⟩ := hplacement.entry hr
  obtain ⟨dpath, hdp⟩ := hplacement.entry hd
  obtain ⟨-, slot, rfl⟩ := hplacement.child_path hcp hparent hrp
  obtain ⟨-, slot', rfl⟩ := hplacement.child_path hcp' hparent' hrp
  obtain ⟨rest, hrest⟩ := hplacement.below hbelow hcp hdp
  obtain ⟨rest', hrest'⟩ := hplacement.below hbelow' hcp' hdp
  rw [hrest] at hrest'
  obtain ⟨hpath, -⟩ := append_inj hrest' (by
    rw [length_append, length_append]
    rfl)
  exact hplacement.index_eq hcp hcp' hpath

end Places

section Blocks

variable {router : TreeRouter} {destAddress i : ℕ}

section

variable (hfit : router.nib.cskip * router.nib.maxRouters + 1 < 2 ^ 16)

include hfit

theorem lowerAddress_eq (hi : i < router.nib.maxRouters) :
    router.nib.lowerAddress i = router.nib.cskip * i + 1 ∧
      router.nib.upperAddress i = router.nib.cskip * i + 1 + router.nib.cskip := by
  have hle : router.nib.cskip * i + router.nib.cskip ≤
      router.nib.cskip * router.nib.maxRouters :=
    Nat.mul_le_mul_left router.nib.cskip hi
  have hlower : router.nib.lowerAddress i = router.nib.cskip * i + 1 := by
    rw [TreeNib.lowerAddress, Nat.mod_eq_of_lt]
    omega
  refine ⟨hlower, ?_⟩
  rw [TreeNib.upperAddress, hlower, Nat.mod_eq_of_lt]
  omega

theorem blockIndex_eq_some_iff : router.blockIndex destAddress = some i ↔
      i < router.nib.maxRouters ∧ router.nib.cskip * i + 1 < destAddress ∧
        destAddress < router.nib.cskip * i + 1 + router.nib.cskip := by
  have hmem : ∀ j, j < router.nib.maxRouters →
      ((decide (router.nib.lowerAddress j < destAddress) &&
          decide (destAddress < router.nib.upperAddress j)) = true ↔
        router.nib.cskip * j + 1 < destAddress ∧
          destAddress < router.nib.cskip * j + 1 + router.nib.cskip) := by
    intro j hj
    obtain ⟨hlower, hupper⟩ := lowerAddress_eq hfit hj
    rw [Bool.and_eq_true, decide_eq_true_iff, decide_eq_true_iff, hlower, hupper]
  rw [TreeRouter.blockIndex, List.find?_range_eq_some]
  constructor
  · rintro ⟨hfound, hi, -⟩
    have hlt := mem_range.mp hi
    exact ⟨hlt, (hmem i hlt).mp hfound⟩
  · rintro ⟨hlt, hlow, hhigh⟩
    refine ⟨(hmem i hlt).mpr ⟨hlow, hhigh⟩, mem_range.mpr hlt, ?_⟩
    intro j hj
    rw [Bool.not_eq_true', Bool.eq_false_iff]
    intro hfound
    have hupper := ((hmem j (hj.trans hlt)).mp hfound).2
    -- the block of `j` ends where that of `i` starts or before
    have hle : router.nib.cskip * j + router.nib.cskip ≤ router.nib.cskip * i :=
      Nat.mul_le_mul_left router.nib.cskip hj
    omega

/-- The child is found by the lower end of its block if the numbers which the
source computes are those of the blocks of this router. -/
theorem blockIndex_child_iff {j : ℕ}
    (hlow : router.nib.macShortAddress + 1 + j * router.nib.cskip < destAddress)
    (hhigh : destAddress < router.nib.macShortAddress + 1 +
      j * router.nib.cskip + router.nib.cskip) :
    (∃ i, router.blockIndex destAddress = some i ∧ router.nib.lowerAddress i =
          router.nib.macShortAddress + 1 + j * router.nib.cskip) ↔
      router.nib.cskip ∣ router.nib.macShortAddress ∧
        (destAddress - 1) / router.nib.cskip < router.nib.maxRouters := by
  have hpos : 0 < router.nib.cskip := by omega
  constructor
  · rintro ⟨i, hindex, hlower⟩
    obtain ⟨hi, hlow', hhigh'⟩ := (blockIndex_eq_some_iff hfit).mp hindex
    rw [(lowerAddress_eq hfit hi).1] at hlower
    constructor
    · have hsum : router.nib.cskip ∣
          j * router.nib.cskip + router.nib.macShortAddress := by
        refine ⟨i, ?_⟩
        omega
      exact (Nat.dvd_add_right (Dvd.intro_left j rfl)).mp hsum
    · rw [Nat.div_lt_iff_lt_mul hpos]
      have hle := Nat.mul_le_mul_left router.nib.cskip hi
      rw [Nat.mul_comm router.nib.maxRouters]
      rw [Nat.succ_eq_add_one, Nat.mul_add, Nat.mul_one] at hle
      omega
  · rintro ⟨⟨q, hq⟩, hlt⟩
    have hstart : router.nib.cskip * (q + j) =
        router.nib.macShortAddress + j * router.nib.cskip := by
      rw [Nat.mul_add, ← hq, Nat.mul_comm j]
    have hindex : (destAddress - 1) / router.nib.cskip = q + j := by
      apply Nat.div_eq_of_lt_le
      · rw [Nat.mul_comm]
        omega
      · rw [Nat.add_mul, Nat.mul_comm (q + j), Nat.one_mul]
        omega
    rw [hindex] at hlt
    refine ⟨q + j, (blockIndex_eq_some_iff hfit).mpr ⟨hlt, ?_, ?_⟩, ?_⟩
    · omega
    · omega
    · rw [(lowerAddress_eq hfit hlt).1]
      omega

end

end Blocks

/-! ## The right neighbor -/

/-- The router sends right to a device which is below one of its children: the
device is no neighbor, and the addresses of the router and of the device fit
the blocks which the source computes as if the router had address 0. -/
def TreeNetwork.HopSafe (net : TreeNetwork) (router : TreeRouter) (r d : ℕ) : Prop :=
  ∀ dest ∈ net[d]?, net.Below r d → dest.parent ≠ some r →
    router.knows dest.nib.macShortAddress = false ∧
      router.nib.cskip ∣ router.nib.macShortAddress ∧
      (dest.nib.macShortAddress - 1) / router.nib.cskip < router.nib.maxRouters

section Right

variable {cm rm lm : ℕ} {net : TreeNetwork}
  {placed : List (TreeDevice × List Slot)} {r d : ℕ} {router : TreeRouter}
  {dest : TreeDevice}

theorem Placement.address_ne (hplacement : Placement cm rm lm net placed) {c : ℕ}
    {child : TreeDevice} (hc : net[c]? = some child)
    (hd : net[d]? = some dest) (hne : c ≠ d) :
    child.nib.macShortAddress ≠ dest.nib.macShortAddress := by
  obtain ⟨cpath, hcp⟩ := hplacement.entry hc
  obtain ⟨dpath, hdp⟩ := hplacement.entry hd
  have hcl := hplacement.located _ (mem_of_getElem? hcp)
  have hdl := hplacement.located _ (mem_of_getElem? hdp)
  intro hsame
  have haddress := hcl.address.symm.trans (hsame.trans hdl.address)
  exact hne (hplacement.index_eq hcp hdp (hcl.place.injective hdl.place haddress))

theorem KnowsNeighbors.knows_child
    (hknows : KnowsNeighbors net r router) {c : ℕ} {child : TreeDevice}
    (hc : net[c]? = some child) (hparent : child.parent = some r) :
    router.knows child.nib.macShortAddress = true := by
  obtain ⟨ref, hsearch, hknown⟩ := hknows.children c child hc hparent
  rw [TreeRouter.knows, neighborRow, hsearch]
  change Option.isSome (if _ then _ else _) = true
  rw [if_pos hknown]
  rfl

section

variable (hrm : 1 ≤ rm) (hcm : rm ≤ cm) (hfit : blockSize rm (cm - rm) lm ≤ 0xFFF8)
  (hplacement : Placement cm rm lm net placed)
  (hknows : KnowsNeighbors net r router) (hd : net[d]? = some dest)
  (hne : r ≠ d)

include hrm hcm hfit hplacement hknows hd hne

theorem routesRight_up (hnot : ¬ net.Below r d) : net.RoutesRight router r d := by
  obtain ⟨dev, hr, hisRouter, hnib⟩ := hknows.nib
  obtain ⟨path, hrp⟩ := hplacement.entry hr
  obtain ⟨dpath, hdp⟩ := hplacement.entry hd
  have hup : ¬ router.GoesDown dest.nib.macShortAddress := by
    rwa [goesDown_iff_below hrm hcm hfit hplacement hrp hisRouter hnib hdp hne]
  cases hparent : dev.parent with
  | none =>
    have hroot := hplacement.rooted _ (mem_of_getElem? hrp) hparent
    exact absurd (hplacement.below_of_root hrp hdp hroot) hnot
  | some p =>
    obtain ⟨above, slot, habove, -, -⟩ :=
      hplacement.parent _ (mem_of_getElem? hrp) p hparent
    have hp := hplacement.device habove
    obtain ⟨hknown, haddress⟩ := hknows.parent dev p above.1 hr hparent hp
    refine ⟨dest, p, above.1, hd, .up hr hparent hnot, hp, ?_⟩
    rw [nextHop_up hknows.rows hknown hup, haddress]

theorem routesRight_iff_child {c : ℕ} {child : TreeDevice} (hc : net[c]? = some child)
    (hparent : child.parent = some r) (hbelow : net.Below c d) :
    net.RoutesRight router r d ↔ router.downHop dest.nib.macShortAddress =
        some child.nib.macShortAddress := by
  obtain ⟨dev, hr, hisRouter, hnib⟩ := hknows.nib
  obtain ⟨path, hrp⟩ := hplacement.entry hr
  obtain ⟨cpath, hcp⟩ := hplacement.entry hc
  obtain ⟨dpath, hdp⟩ := hplacement.entry hd
  have hrd : net.Below r d := by
    obtain ⟨-, slot, hslot⟩ := hplacement.child_path hcp hparent hrp
    obtain ⟨rest, hrest⟩ := hplacement.below hbelow hcp hdp
    have hpath : dpath = path ++ slot :: rest := by
      dsimp only at hslot hrest
      rw [hrest, hslot, append_assoc]
      rfl
    exact hplacement.below_of_prefix hrp hdp hpath
  have hdown : router.GoesDown dest.nib.macShortAddress := by
    rwa [goesDown_iff_below hrm hcm hfit hplacement hrp hisRouter hnib hdp hne]
  rw [← nextHop_down hknows.rows hdown]
  constructor
  · rintro ⟨dest', h, next, hd', hnext, hh, hhop⟩
    obtain rfl := some.inj (hd.symm.trans hd')
    cases hnext with
    | down hchild' hparent' hbelow' =>
      obtain rfl := hplacement.child_unique hc hchild' hr hd hparent
        hparent' hbelow hbelow'
      obtain rfl := some.inj (hc.symm.trans hh)
      exact hhop
    | up _ _ hnot => exact absurd hrd hnot
  · intro hhop
    exact ⟨dest, c, child, hd, .down hc hparent hbelow, hc, hhop⟩

end

theorem Placement.child_block (hrm : 1 ≤ rm) (hfit : blockSize rm (cm - rm) lm ≤ 0xFFF8)
    (hplacement : Placement cm rm lm net placed) {dev child : TreeDevice}
    {c : ℕ} (hr : net[r]? = some dev) (hc : net[c]? = some child)
    (hd : net[d]? = some dest) (hparent : child.parent = some r)
    (hbelow : net.Below c d) (hne : c ≠ d) :
    dev.nib.cskip * dev.nib.maxRouters + 1 < 2 ^ 16 ∧ ∃ j, child.nib.macShortAddress =
          dev.nib.macShortAddress + 1 + j * dev.nib.cskip ∧
        child.nib.macShortAddress < dest.nib.macShortAddress ∧
        dest.nib.macShortAddress < child.nib.macShortAddress + dev.nib.cskip := by
  obtain ⟨path, hrp⟩ := hplacement.entry hr
  obtain ⟨cpath, hcp⟩ := hplacement.entry hc
  obtain ⟨dpath, hdp⟩ := hplacement.entry hd
  obtain ⟨hisRouter, slot, hcpath⟩ := hplacement.child_path hcp hparent hrp
  obtain ⟨e, below, he, heparent, -⟩ := hbelow.exists_child hne
  obtain ⟨epath, hep⟩ := hplacement.entry he
  have hcRouter := (hplacement.child_path hep heparent hcp).1
  dsimp only at hisRouter hcpath hcRouter
  have hrl := hplacement.located _ (mem_of_getElem? hrp)
  have hcl := hplacement.located _ (mem_of_getElem? hcp)
  have hat := hrl.router hisRouter
  have hcat := hcl.router hcRouter
  dsimp only at hat hcat
  obtain ⟨slots, hslots, -, hlength⟩ := hat.inner
  obtain ⟨cslots, hcslots, -, hclength⟩ := hcat.inner
  have hdepth : child.nib.depth = dev.nib.depth + 1 := by
    have hlengths := congrArg length hcpath
    rwa [hcslots, hslots, length_append, length_innerPath,
      length_innerPath, hlength, hclength] at hlengths
  have hlm := hcat.depth
  rw [hdepth] at hlm
  have hskip := hat.cskip hlm
  obtain ⟨j, rfl⟩ : ∃ j, slot = .inner j := by
    have hmem : slot ∈ innerPath cslots := by
      rw [← hcslots, hcpath]
      exact mem_append_right _ mem_cons_self
    obtain ⟨j, -, hj⟩ := mem_map.mp hmem
    exact ⟨j, hj.symm⟩
  have hlevel : lm - slots.length = lm - dev.nib.depth - 1 + 1 := by omega
  have haddress : child.nib.macShortAddress =
      dev.nib.macShortAddress + 1 + j * dev.nib.cskip := by
    rw [hcl.address, hrl.address]
    dsimp only
    rw [hcpath, hslots, offset_innerPath_append (by omega), hlevel, hskip,
      offset, slotOffset, offset_nil, Nat.add_zero, ← Nat.add_assoc]
  constructor
  · have hblock := @blockSize_le_succ rm (cm - rm) (lm - dev.nib.depth - 1)
    have hmono := @blockSize_mono rm (cm - rm) (lm - dev.nib.depth - 1 + 1)
      hrm lm (by omega)
    rw [hskip, hat.maxRouters, Nat.mul_comm]
    omega
  · have hmember := (hplacement.below_iff_block hcp hdp hcRouter (by
      rw [hdepth]
      exact Nat.succ_ne_zero _)).mp hbelow
    have hother := hplacement.address_ne hc hd hne
    have hsize : lm - child.nib.depth = lm - dev.nib.depth - 1 := by omega
    dsimp only at hmember
    rw [hsize, ← hskip] at hmember
    refine ⟨j, haddress, ?_, hmember.2⟩
    omega

theorem routesRight_iff_hopSafe (hrm : 1 ≤ rm) (hcm : rm ≤ cm)
    (hfit : blockSize rm (cm - rm) lm ≤ 0xFFF8)
    (hplacement : Placement cm rm lm net placed)
    (hknows : KnowsNeighbors net r router) (hd : net[d]? = some dest)
    (hne : r ≠ d) :
    net.RoutesRight router r d ↔ net.HopSafe router r d := by
  have hsafe : net.HopSafe router r d ↔ (net.Below r d → dest.parent ≠ some r →
        router.knows dest.nib.macShortAddress = false ∧
          router.nib.cskip ∣ router.nib.macShortAddress ∧
          (dest.nib.macShortAddress - 1) / router.nib.cskip < router.nib.maxRouters) := by
    constructor
    · intro hsafe
      exact hsafe dest hd
    · intro hsafe dest' hd'
      obtain rfl := some.inj (hd.symm.trans hd')
      exact hsafe
  rw [hsafe]
  by_cases hbelow : net.Below r d
  · obtain ⟨c, child, hc, hparent, hcd⟩ := hbelow.exists_child hne
    rw [routesRight_iff_child hrm hcm hfit hplacement hknows hd hne hc hparent hcd]
    by_cases hchild : c = d
    · subst hchild
      obtain rfl := some.inj (hc.symm.trans hd)
      refine iff_of_true ?_ fun _ hnot => absurd hparent hnot
      rw [TreeRouter.downHop, if_pos (hknows.knows_child hc hparent)]
    · -- only the child above `d` is a right neighbor
      have hnotChild : dest.parent ≠ some r := by
        intro hdirect
        obtain ⟨dev, hr, -, -⟩ := hknows.nib
        exact hchild (hplacement.child_unique hc hd hr hd hparent hdirect hcd .self)
      have hother := hplacement.address_ne hc hd hchild
      obtain ⟨dev, hr, -, hnib⟩ := hknows.nib
      obtain ⟨hskip, j, haddress, hlow, hhigh⟩ :=
        hplacement.child_block hrm hfit hr hc hd hparent hcd hchild
      rw [← hnib] at hskip haddress hhigh
      have hknown := hknows.knows_child hc hparent
      rw [haddress] at hlow hhigh hknown hother ⊢
      have hindex := blockIndex_child_iff hskip hlow hhigh
      rw [forall_prop_of_true hbelow, forall_prop_of_true hnotChild, ← hindex,
        TreeRouter.downHop]
      cases router.knows dest.nib.macShortAddress with
      | true =>
        refine iff_of_false ?_ fun hright => absurd hright.1 (by decide)
        intro hhop
        exact hother (some.inj hhop).symm
      | false =>
        rw [if_neg Bool.false_ne_true, and_iff_right rfl]
        constructor
        · intro hhop
          obtain ⟨i, hi, hlower⟩ := bind_eq_some_iff.mp hhop
          split at hlower
          · exact ⟨i, hi, some.inj hlower⟩
          · contradiction
        · rintro ⟨i, hi, hlower⟩
          refine bind_eq_some_iff.mpr ⟨i, hi, ?_⟩
          rw [hlower, if_pos hknown]
  · exact iff_of_true (routesRight_up hrm hcm hfit hplacement hknows hd hne hbelow)
      fun hdown => absurd hdown hbelow

end Right

/-! ## Delivery -/

def hopsLeft (dpath path : List Slot) : ℕ :=
  if path <+: dpath then dpath.length - path.length
  else path.length + dpath.length

theorem hopsLeft_child
    {dpath path : List Slot} {slot : Slot} (hchild : path ++ [slot] <+: dpath) :
    hopsLeft dpath (path ++ [slot]) < hopsLeft dpath path := by
  have hlength := hchild.length_le
  have hpath : path <+: dpath := (prefix_append path [slot]).trans hchild
  rw [hopsLeft, hopsLeft, if_pos hchild, if_pos hpath]
  rw [length_append, length_singleton] at hlength ⊢
  omega

theorem hopsLeft_parent {dpath path : List Slot} {slot : Slot}
    (hnot : ¬ path ++ [slot] <+: dpath) :
    hopsLeft dpath path < hopsLeft dpath (path ++ [slot]) := by
  rw [hopsLeft, hopsLeft, if_neg hnot, length_append, length_singleton]
  split
  · omega
  · omega

theorem hopsLeft_le (dpath path : List Slot) :
    hopsLeft dpath path ≤ path.length + dpath.length := by
  unfold hopsLeft
  split
  · omega
  · exact Nat.le_refl _

theorem PlaceExists.length_le
    {cm rm lm : ℕ} {path : List Slot} (hplace : PlaceExists cm rm lm path) :
    path.length ≤ lm := by
  rcases hplace with hvalid | ⟨j, rfl, hpos, -⟩
  · exact length_le_of_valid hvalid
  · exact hpos

section Delivery

variable {cm rm lm : ℕ} {net : TreeNetwork}
  {placed : List (TreeDevice × List Slot)} {d : ℕ}
  {routers : ℕ → TreeRouter} {dest : TreeDevice}

section

variable (hplacement : Placement cm rm lm net placed)

include hplacement

theorem Placement.find_eq {h : ℕ} {next : TreeDevice} (hnext : net[h]? = some next) :
    net.find next.nib.macShortAddress = some h := by
  obtain ⟨hlt, hget⟩ := List.getElem?_eq_some_iff.mp hnext
  rw [TreeNetwork.find, List.findIdx?_eq_some_iff_getElem]
  refine ⟨hlt, ?_, ?_⟩
  · rw [hget, decide_eq_true rfl]
  · intro j hj
    have hother : net[j]? = some net[j] := List.getElem?_eq_getElem _
    have hne := hplacement.address_ne hother hnext (Nat.ne_of_lt hj)
    simpa using hne

theorem Placement.hop_nearer {dpath : List Slot} (hd : placed[d]? = some (dest, dpath))
    (hright : ∀ r dev, net[r]? = some dev → dev.isRouter = true → r ≠ d →
      net.RoutesRight (routers r) r d)
    {x : ℕ} {dev : TreeDevice} {path : List Slot}
    (hx : placed[x]? = some (dev, path)) (hne : x ≠ d) :
    ∃ y dev' path', net.hop routers dest.nib.macShortAddress x = some y ∧
      placed[y]? = some (dev', path') ∧
      hopsLeft dpath path' < hopsLeft dpath path := by
  have hdev := hplacement.device hx
  have hdest := hplacement.device hd
  have hup : ∀ p, dev.parent = some p → ¬ net.Below x d →
      ∃ dev' path', placed[p]? = some (dev', path') ∧
        hopsLeft dpath path' < hopsLeft dpath path := by
    intro p hparent hnot
    obtain ⟨above, slot, habove, -, hpath⟩ :=
      hplacement.parent _ (mem_of_getElem? hx) p hparent
    refine ⟨above.1, above.2, habove, ?_⟩
    dsimp only at hpath
    rw [hpath]
    apply hopsLeft_parent
    rintro ⟨rest, hrest⟩
    exact hnot (hplacement.below_of_prefix hx hd (by rw [hpath, ← hrest]))
  cases hisRouter : dev.isRouter with
  | true =>
    obtain ⟨dest', h, next, hd', hnext, hh, hhop⟩ := hright x dev hdev hisRouter hne
    obtain rfl := some.inj (hdest.symm.trans hd')
    have hstep : net.hop routers dest.nib.macShortAddress x = some h := by
      simp only [TreeNetwork.hop, hdev, hisRouter, if_true, bind_eq_bind, bind_some, hhop]
      exact hplacement.find_eq hh
    cases hnext with
    | @down child hchild hparent hbelow =>
      obtain ⟨cpath, hcp⟩ := hplacement.entry hchild
      obtain ⟨-, slot, rfl⟩ := hplacement.child_path hcp hparent hx
      obtain ⟨rest, hrest⟩ := hplacement.below hbelow hcp hd
      exact ⟨h, child, path ++ [slot], hstep, hcp, hopsLeft_child ⟨rest, hrest.symm⟩⟩
    | @up dev' hdev' hparent hnot =>
      obtain rfl := some.inj (hdev.symm.trans hdev')
      obtain ⟨above, apath, habove, hlt⟩ := hup h hparent hnot
      exact ⟨h, above, apath, hstep, habove, hlt⟩
  | false =>
    -- an end device has no children
    have hnot : ¬ net.Below x d := by
      intro hbelow
      obtain ⟨c, child, hc, hparent, -⟩ := hbelow.exists_child hne
      obtain ⟨cpath, hcp⟩ := hplacement.entry hc
      have hrouter := (hplacement.child_path hcp hparent hx).1
      exact absurd (hisRouter.symm.trans hrouter) Bool.false_ne_true
    cases hparent : dev.parent with
    | none =>
      have hroot := hplacement.rooted _ (mem_of_getElem? hx) hparent
      exact absurd (hplacement.below_of_root hx hd hroot) hnot
    | some p =>
      obtain ⟨above, apath, habove, hlt⟩ := hup p hparent hnot
      refine ⟨p, above, apath, ?_, habove, hlt⟩
      simp only [TreeNetwork.hop, hdev, hisRouter,
        Bool.false_eq_true, if_false, bind_eq_bind,
        bind_some, hparent]

theorem Placement.arrives (hd : net[d]? = some dest)
    (hright : ∀ r dev, net[r]? = some dev → dev.isRouter = true → r ≠ d →
      net.RoutesRight (routers r) r d)
    {x : ℕ} (hx : x < net.length) :
    Arrives (net.hop routers dest.nib.macShortAddress) d (2 * lm) x := by
  obtain ⟨dpath, hdp⟩ := hplacement.entry hd
  obtain ⟨path, hxp⟩ := hplacement.entry (List.getElem?_eq_getElem hx)
  have hlength := (hplacement.located _ (mem_of_getElem? hxp)).place
  have hdlength := (hplacement.located _ (mem_of_getElem? hdp)).place
  let measure : ℕ → ℕ := fun i => hopsLeft dpath ((placed[i]?.map Prod.snd).getD [])
  have hmeasure : ∀ {i dev ipath}, placed[i]? = some (dev, ipath) →
      measure i = hopsLeft dpath ipath := by
    intro i dev ipath hentry
    change hopsLeft dpath ((placed[i]?.map Prod.snd).getD []) = _
    rw [hentry]
    rfl
  have hstep : ∀ i, (∃ entry, placed[i]? = some entry) → i ≠ d →
      ∃ y, net.hop routers dest.nib.macShortAddress i = some y ∧
        (∃ entry, placed[y]? = some entry) ∧ measure y < measure i := by
    rintro i ⟨⟨dev, ipath⟩, hentry⟩ hne
    obtain ⟨y, dev', path', hhop, hy, hlt⟩ := hplacement.hop_nearer hdp hright hentry hne
    exact ⟨y, hhop, ⟨_, hy⟩, by rwa [hmeasure hy, hmeasure hentry]⟩
  refine (arrives_of_decreasing measure _ hstep ⟨_, hxp⟩).mono ?_
  rw [hmeasure hxp]
  have hle := hopsLeft_le dpath path
  have hpath := hlength.length_le
  have hdpath := hdlength.length_le
  dsimp only at hpath hdpath
  omega

end

end Delivery

def TreeNetwork.Addressed (net : TreeNetwork) (cm rm lm : ℕ) : Prop :=
  ∃ placed, Placement cm rm lm net placed

theorem addressed_of_run {maxChildren maxRouters maxDepth : ℕ} {calls : List JoinCall}
    {net : TreeNetwork} (hrouters : 1 ≤ maxRouters)
    (hchildren : maxRouters ≤ maxChildren)
    (hfit : blockSize maxRouters (maxChildren - maxRouters) maxDepth ≤ 0xFFF8)
    (hsafe : AlongRun JoinCall.apply (fun net call => call.Safe net)
      (.formed maxChildren maxRouters maxDepth) calls)
    (hrun : run JoinCall.apply (.formed maxChildren maxRouters maxDepth)
      calls = some net) :
    net.Addressed maxChildren maxRouters maxDepth := by
  refine @invariant_of_run _ _ _ _
    (fun net : TreeNetwork => net.Addressed maxChildren maxRouters maxDepth)
    ?_ _ _ _ ⟨_, placement_formed hrouters hchildren hfit⟩ hsafe hrun
  rintro net call next ⟨placed, hplacement⟩ hsafe happly
  exact hplacement.apply hrouters hchildren hfit hsafe happly

/-- Tree routing delivers to a device if and only if each router sends right
to it when it is deeper than the children of the router. -/
theorem deliversTo_iff_hopSafe (maxChildren maxRouters maxDepth : ℕ) (net : TreeNetwork)
    (routers : ℕ → TreeRouter) (d : ℕ)
    (hrouters : 1 ≤ maxRouters) (hchildren : maxRouters ≤ maxChildren)
    (hfit : blockSize maxRouters (maxChildren - maxRouters) maxDepth ≤ 0xFFF8)
    (haddressed : net.Addressed maxChildren maxRouters maxDepth)
    (hknows : ∀ r dev, net[r]? = some dev → dev.isRouter = true →
      KnowsNeighbors net r (routers r))
    (hd : d < net.length) :
    net.DeliversTo routers maxDepth d ↔
      ∀ r dev, net[r]? = some dev → dev.isRouter = true → r ≠ d →
        net.HopSafe (routers r) r d := by
  obtain ⟨placed, hplacement⟩ := haddressed
  have hdest := List.getElem?_eq_getElem hd
  have hright : ∀ r dev, net[r]? = some dev → dev.isRouter = true → r ≠ d →
      (net.RoutesRight (routers r) r d ↔ net.HopSafe (routers r) r d) := by
    intro r dev hr hisRouter hne
    exact routesRight_iff_hopSafe hrouters hchildren hfit hplacement
      (hknows r dev hr hisRouter) hdest hne
  constructor
  · intro hdelivers r dev hr hisRouter hne
    exact (hright r dev hr hisRouter hne).mp (hdelivers.right r dev hr hisRouter hne)
  · intro hsafe
    have hall : ∀ r dev, net[r]? = some dev → dev.isRouter = true → r ≠ d →
        net.RoutesRight (routers r) r d := by
      intro r dev hr hisRouter hne
      exact (hright r dev hr hisRouter hne).mpr (hsafe r dev hr hisRouter hne)
    refine ⟨hall, ?_⟩
    intro dest hdest x hx
    exact hplacement.arrives hdest hall hx

def meetNeighbor (zg : Globals) (address : ℕ) : Option Globals := do
  let (addr, ret) ← zbAddressByShort zg.addr address true false
  let ref ← ret.toOption
  let (zg, _) ← zbNwkNeighborGet { zg with addr := addr } ref true
  some zg

def metNeighbors (addresses : List ℕ) : Globals :=
  (run meetNeighbor (.init .zero) addresses).getD (.init .zero)

theorem rowsAgree_metNeighbors (addresses : List ℕ) :
    RowsAgree (metNeighbors addresses) := by
  have hsound : RowsSound (metNeighbors addresses).neighbor := by
    unfold metNeighbors
    cases hrun : run meetNeighbor (.init .zero) addresses with
    | none => exact rowsSound_init
    | some zg =>
      refine @invariant_of_run _ _ _ (fun _ _ => True)
        (fun zg : Globals => RowsSound zg.neighbor) ?_ _ _ _ rowsSound_init
        (alongRun_of_forall (fun _ _ => trivial) _ _) hrun
      intro zg address next hsound _ hmeet
      obtain ⟨⟨addr, ret⟩, -, hrest⟩ := bind_eq_some_iff.mp hmeet
      obtain ⟨ref, -, hrest⟩ := bind_eq_some_iff.mp hrest
      obtain ⟨⟨zg', ret'⟩, hget, hnext⟩ := bind_eq_some_iff.mp hrest
      obtain rfl := some.inj hnext
      have hsame : RowsSound { zg with addr := addr }.neighbor := hsound
      exact zbNwkNeighborGet_rows hsame hget
  intro ref href
  exact (hsound.linked ref href).2.2

/-- A router in its place which has met its neighbors; the reference of the
first one is that of its parent. -/
def TreeNetwork.routerAt
    (net : TreeNetwork) (r : ℕ) (neighbors : List ℕ) : TreeRouter where
  zg := metNeighbors neighbors
  nib := ((net[r]?).map (·.nib)).getD (coordinatorNib 0 0 0)
  parent := 0

def TreeNetwork.HasMet
    (net : TreeNetwork) (r : ℕ) (dev : TreeDevice) (neighbors : List ℕ) :
    Prop :=
  (∀ p ∈ dev.parent, ∀ above ∈ net[p]?,
    (metNeighbors neighbors).neighbor.addrToNeighbor 0 ≠ noNeighbor ∧
      ((metNeighbors neighbors).addr.addrMap 0).addr = above.nib.macShortAddress) ∧
  ∀ child ∈ net, child.parent = some r →
    neighborRow (metNeighbors neighbors) child.nib.macShortAddress ≠ none

instance TreeNetwork.decidableHasMet
    (net : TreeNetwork) (r : ℕ) (dev : TreeDevice) (neighbors : List ℕ) :
    Decidable (net.HasMet r dev neighbors) :=
  inferInstanceAs (Decidable (_ ∧ _))

theorem knowsNeighbors_routerAt {net : TreeNetwork} {neighbors : ℕ → List ℕ}
    (hmet : ∀ r < net.length, ∀ dev ∈ net[r]?, dev.isRouter = true →
      net.HasMet r dev (neighbors r)) :
    ∀ r dev, net[r]? = some dev → dev.isRouter = true →
      KnowsNeighbors net r (net.routerAt r (neighbors r)) := by
  intro r dev hdev hisRouter
  obtain ⟨hparent, hchildren⟩ :=
    hmet r (List.getElem?_eq_some_iff.mp hdev).1 dev hdev hisRouter
  constructor
  · refine ⟨dev, hdev, hisRouter, ?_⟩
    rw [TreeNetwork.routerAt, hdev]
    rfl
  · exact rowsAgree_metNeighbors (neighbors r)
  · intro dev' p above hdev' hp habove
    obtain rfl := some.inj (hdev.symm.trans hdev')
    exact hparent p hp above habove
  · intro c child hc hcp
    obtain ⟨n, hrow⟩ := ne_none_iff_exists'.mp (hchildren child (mem_of_getElem? hc) hcp)
    obtain ⟨ref, hsearch, hn⟩ := bind_eq_some_iff.mp hrow
    dsimp only at hn
    split at hn
    · rename_i hknown
      exact ⟨ref, hsearch, hknown⟩
    · contradiction

def smallTree : TreeNetwork :=
  (run JoinCall.apply (.formed 3 2 2) [joinRouter 0, joinEd 1, joinEd 0]).getD []

theorem addressed_smallTree : smallTree.Addressed 3 2 2 := by
  have hrun : run JoinCall.apply (.formed 3 2 2)
      [joinRouter 0, joinEd 1, joinEd 0] = some smallTree := by
    decide +kernel
  exact addressed_of_run (by decide) (by decide) (by decide)
    (by decide +kernel) hrun

def smallTreeNeighbors (r : ℕ) : List ℕ := if r = 0 then [1, 9] else [0, 4]

/-- All packets arrive at the end device of the router. -/
theorem deliversTo_smallTree : smallTree.DeliversTo
      (fun r => smallTree.routerAt r (smallTreeNeighbors r)) 2 2 := by
  have hsafe : ∀ r < smallTree.length, ∀ dev ∈ smallTree[r]?,
      dev.isRouter = true → ∀ dest ∈ smallTree[2]?, dest.parent ≠ some r →
        (smallTree.routerAt r (smallTreeNeighbors r)).knows
            dest.nib.macShortAddress = false ∧
          (smallTree.routerAt r (smallTreeNeighbors r)).nib.cskip ∣
            (smallTree.routerAt r (smallTreeNeighbors r)).nib.macShortAddress ∧
          (dest.nib.macShortAddress - 1) /
              (smallTree.routerAt r (smallTreeNeighbors r)).nib.cskip <
            (smallTree.routerAt r (smallTreeNeighbors r)).nib.maxRouters := by
    decide +kernel
  refine (deliversTo_iff_hopSafe 3 2 2 smallTree _ 2 (by decide) (by decide)
    (by decide) addressed_smallTree
    (knowsNeighbors_routerAt (by decide +kernel)) (by decide +kernel)).mpr ?_
  intro r dev hdev hisRouter _ dest hdest _ hparent
  exact hsafe r (List.getElem?_eq_some_iff.mp hdev).1 dev hdev hisRouter dest hdest hparent

def deepTree : TreeNetwork :=
  (run JoinCall.apply (.formed 2 1 3) [joinRouter 0, joinRouter 1, joinEd 2]).getD []

def deepTreeNeighbors (r : ℕ) : List ℕ :=
  if r = 0 then [1] else if r = 1 then [0, 2] else [1, 4]

/-- The router with address 1 finds no neighbor for the end device. -/
theorem not_deliversTo_deepTree : deepTree.Addressed 2 1 3 ∧
      (∀ r dev, deepTree[r]? = some dev → dev.isRouter = true → KnowsNeighbors deepTree r
          (deepTree.routerAt r (deepTreeNeighbors r))) ∧
      ¬ deepTree.DeliversTo (fun r => deepTree.routerAt r (deepTreeNeighbors r)) 3 3 := by
  refine ⟨?_, knowsNeighbors_routerAt (by decide +kernel), ?_⟩
  · have hrun : run JoinCall.apply (.formed 2 1 3)
        [joinRouter 0, joinRouter 1, joinEd 2] = some deepTree := by
      decide +kernel
    exact addressed_of_run (by decide) (by decide) (by decide)
      (by decide +kernel) hrun
  · intro hdelivers
    have hrouter : ∃ dev, deepTree[1]? = some dev ∧ dev.isRouter = true := by
      have hmap : (deepTree[1]?).map TreeDevice.isRouter = some true := by decide +kernel
      obtain ⟨dev, hdev, hisRouter⟩ := map_eq_some_iff.mp hmap
      exact ⟨dev, hdev, hisRouter⟩
    have hnothing : ∀ dest ∈ deepTree[3]?,
        (deepTree.routerAt 1 (deepTreeNeighbors 1)).nextHop
          dest.nib.macShortAddress = none := by
      decide +kernel
    obtain ⟨dev, hdev, hisRouter⟩ := hrouter
    obtain ⟨dest, h, next, hdest, -, -, hhop⟩ :=
      hdelivers.right 1 dev hdev hisRouter (by decide)
    rw [hnothing dest hdest] at hhop
    contradiction

end Zboss
