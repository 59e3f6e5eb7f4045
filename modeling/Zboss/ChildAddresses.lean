import Zboss.LeaveRequests
import Zboss.RejoinIndications
import Zboss.TreeAddresses

/-!
# Addresses of children

The address of the next child comes from the counters of children, so it is
free as long as no counter goes back below a child which is still in the
neighbor table.  `zb_nlme_leave_request` counts an end device out when the
request is sent, while its row is there until the confirm.
-/

namespace Zboss

open Function Option TransitionSystem

/-! ## Children in the neighbor table -/

structure NeighborTbl.IsChild (nt : NeighborTbl) (n : ℕ) : Prop where
  lt : n < nt.baseNeighborUsed
  used : (nt.baseNeighbor n).used = true
  relationship : (nt.baseNeighbor n).relationship = .child ∨
    (nt.baseNeighbor n).relationship = .unauthenticatedChild

def Globals.neighborAddr (zg : Globals) (n : ℕ) : ℕ :=
  (zg.addr.addrMap (zg.neighbor.baseNeighbor n).addrRef).addr

structure RejoinRouter.AddressesFree (router : RejoinRouter) : Prop where
  distinct : ∀ m n, router.zg.neighbor.IsChild m → router.zg.neighbor.IsChild n →
      router.zg.neighborAddr m = router.zg.neighborAddr n → m = n
  free : ∀ capability : MacCapability, capability.allocateAddress = true →
    ∀ address ∈ (router.nib.admitChild capability).2, ∀ n, router.zg.neighbor.IsChild n →
        router.zg.neighborAddr n ≠ address

structure ChildrenKept (zg zg' : Globals) (except : ℕ → Prop) : Prop where
  rows : RowsSound zg.neighbor → RowsSound zg'.neighbor
  child : RowsSound zg.neighbor → ∀ n, zg'.neighbor.IsChild n → ¬ except n →
    zg.neighbor.IsChild n ∧ zg'.neighborAddr n = zg.neighborAddr n ∧
      (zg'.neighbor.baseNeighbor n).addrRef = (zg.neighbor.baseNeighbor n).addrRef

section Kept

variable {zg zg' zg'' : Globals} {except : ℕ → Prop} {ref n : ℕ}

theorem ChildrenKept.refl (zg : Globals) (except : ℕ → Prop) :
    ChildrenKept zg zg except :=
  ⟨fun h => h, fun _ _ hchild _ => ⟨hchild, rfl, rfl⟩⟩

theorem ChildrenKept.trans (hfirst : ChildrenKept zg zg' except)
    (hsecond : ChildrenKept zg' zg'' except) :
    ChildrenKept zg zg'' except := by
  refine ⟨fun hrows => hsecond.rows (hfirst.rows hrows), ?_⟩
  intro hrows n hchild hkept
  obtain ⟨hchild', haddr', href'⟩ := hsecond.child (hfirst.rows hrows) n hchild hkept
  obtain ⟨hchild₀, haddr₀, href₀⟩ := hfirst.child hrows n hchild' hkept
  exact ⟨hchild₀, haddr'.trans haddr₀, href'.trans href₀⟩

theorem ChildrenKept.mono {except' : ℕ → Prop} (hkept : ChildrenKept zg zg' except)
    (hmono : ∀ n, except n → except' n) : ChildrenKept zg zg' except' :=
  ⟨hkept.rows, fun hrows n hchild hother =>
    hkept.child hrows n hchild (fun h => hother (hmono n h))⟩

theorem childrenKept_setAddr {addr : AddrGlobals}
    (haddr : ∀ n, ¬ except n → zg.neighbor.IsChild n →
      (addr.addrMap (zg.neighbor.baseNeighbor n).addrRef).addr = zg.neighborAddr n) :
    ChildrenKept zg { zg with addr := addr } except :=
  ⟨fun hrows => hrows, fun _ n hchild hkept => ⟨hchild, haddr n hkept hchild, rfl⟩⟩

theorem childrenKept_zbNwkNeighborDelete (zg : Globals) (ref : ℕ) :
    ChildrenKept zg (zbNwkNeighborDelete zg ref).1 fun _ => False := by
  refine ⟨fun hrows => (zbNwkNeighborDelete_rows hrows ref).2.1, ?_⟩
  intro _ n hchild _
  unfold zbNwkNeighborDelete at hchild ⊢
  dsimp only at hchild ⊢
  split at hchild
  · rename_i hpresent
    rw [if_pos hpresent]
    have hne : n ≠ zg.neighbor.addrToNeighbor ref := by
      rintro rfl
      have hused := hchild.used
      simp [NeighborTbl.setRow] at hused
    have hrow : ((zg.neighbor.setNeighbor ref noNeighbor).setRow
        (zg.neighbor.addrToNeighbor ref)
          { zg.neighbor.baseNeighbor (zg.neighbor.addrToNeighbor ref) with
            used := false }).baseNeighbor n = zg.neighbor.baseNeighbor n :=
      update_of_ne hne ..
    obtain ⟨hlt, hused, hrelationship⟩ := hchild
    dsimp only at hused hrelationship
    rw [hrow] at hused hrelationship
    refine ⟨⟨hlt, hused, hrelationship⟩, ?_, ?_⟩
    · unfold Globals.neighborAddr
      dsimp only
      rw [hrow]
    · dsimp only
      rw [hrow]
  · rename_i habsent
    rw [if_neg habsent]
    exact ⟨hchild, rfl, rfl⟩

theorem childrenKept_zbNwkNeighborGet {create : Bool} {row : Except RetError ℕ}
    (hget : zbNwkNeighborGet zg ref create = some (zg', row)) :
    ChildrenKept zg zg' fun _ => False := by
  refine ⟨fun hrows => zbNwkNeighborGet_rows hrows hget, ?_⟩
  intro _ n hchild _
  rcases zbNwkNeighborGet_eq_some hget with
    ⟨rfl, -⟩ | ⟨-, -, -, -, -, locked, hlock, rfl⟩
  · exact ⟨hchild, rfl, rfl⟩
  · have hne : n ≠ zg.neighbor.baseNeighborUsed := by
      rintro rfl
      have hrelationship := hchild.relationship
      simp [NeighborTbl.setRow, newNeighborEnt] at hrelationship
    have hrow : ((zg.neighbor.setNeighbor ref
        zg.neighbor.baseNeighborUsed).setRow zg.neighbor.baseNeighborUsed
          (newNeighborEnt ref zg.nib.depth)).baseNeighbor n =
            zg.neighbor.baseNeighbor n := update_of_ne hne ..
    obtain ⟨hlt, hused, hrelationship⟩ := hchild
    dsimp only at hlt hused hrelationship
    rw [hrow] at hused hrelationship
    refine ⟨⟨by omega, hused, hrelationship⟩, ?_, ?_⟩
    · unfold Globals.neighborAddr
      dsimp only
      rw [hrow]
      exact ((sameTranslation_zbAddressLock hlock).entry _).addr
    · dsimp only
      rw [hrow]

theorem zbNwkNeighborGet_link
    {create : Bool} {row : Except RetError ℕ} (hrows : RowsSound zg.neighbor)
    (hget : zbNwkNeighborGet zg ref create = some (zg', row)) :
    (∀ other, (zg'.addr.addrMap other).addr = (zg.addr.addrMap other).addr) ∧
      (zg.neighbor.addrToNeighbor ref ≠ noNeighbor →
        row = .ok (zg.neighbor.addrToNeighbor ref)) ∧
      (∀ n, row = .ok n → zg'.neighbor.addrToNeighbor ref = n ∧ n ≠ noNeighbor) ∧
      ∀ err, row = .error err → zg' = zg := by
  rcases zbNwkNeighborGet_eq_some hget with
    ⟨rfl, ⟨hpresent, rfl⟩ | ⟨habsent, err, rfl⟩⟩ |
    ⟨habsent, -, hroom, -, rfl, locked, hlock, rfl⟩
  · refine ⟨fun _ => rfl, fun _ => rfl, ?_, fun _ _ => rfl⟩
    intro n hn
    obtain rfl := Except.ok.inj hn
    exact ⟨rfl, hpresent⟩
  · exact ⟨fun _ => rfl, fun hpresent => absurd habsent hpresent,
      fun _ hn => by contradiction, fun _ _ => rfl⟩
  · refine ⟨fun other => ((sameTranslation_zbAddressLock hlock).entry other).addr,
      fun hpresent => absurd habsent hpresent, ?_,
      fun _ herr => by contradiction⟩
    intro n hn
    obtain rfl := Except.ok.inj hn
    have hsize := hrows.size
    simp only [neighborTableSize] at hsize
    refine ⟨update_self .., ?_⟩
    simp only [noNeighbor]
    omega

theorem childrenKept_zbAddressDelete (zg : Globals) (ref : ℕ) :
    ChildrenKept zg { zg with addr := zbAddressDelete zg.addr ref } fun _ => False := by
  apply childrenKept_setAddr
  intro n _ _
  unfold Globals.neighborAddr
  rw [zbAddressDelete_addrMap, update_apply]
  split
  · rename_i heq
    rw [heq]
  · rfl

theorem childrenKept_forgetDevice (zg : Globals) (ref : ℕ) :
    ChildrenKept zg (forgetDevice zg ref) fun _ => False :=
  (childrenKept_zbNwkNeighborDelete zg ref).trans (childrenKept_zbAddressDelete _ ref)

theorem zbAddressByIeee_addr
    {g g' : AddrGlobals} {ieee : IeeeAddr} {ret : Except RetError ℕ}
    (hcall : zbAddressByIeee g ieee false false = some (g', ret)) (other : ℕ) :
    (g'.addrMap other).addr = (g.addrMap other).addr := by
  obtain ⟨g₁, c, hcompress, hcases⟩ := zbAddressByIeee_eq_some hcall
  have hmap := (sameEntries_zbIeeeAddrCompress hcompress).1
  rcases hcases with ⟨found, -, -, hlock⟩ | ⟨-, -, rfl, -⟩ | ⟨-, hcreate, -⟩
  · rw [((sameTranslation_lockResult hlock).entry other).addr,
      ((sameTable_markClock g₁ found).entry other).addr, hmap]
  · rw [hmap]
  · contradiction

theorem zbAddressByShort_addr {g g' : AddrGlobals} {s : ℕ} {ret : Except RetError ℕ}
    (hcall : zbAddressByShort g s false false = some (g', ret)) (other : ℕ) :
    (g'.addrMap other).addr = (g.addrMap other).addr := by
  rcases zbAddressByShort_eq_some hcall with ⟨found, -, -, hlock⟩ |
    ⟨-, -, rfl, -⟩ | ⟨-, hcreate, -⟩
  · rw [((sameTranslation_lockResult hlock).entry other).addr,
      ((sameTable_markClock g found).entry other).addr]
  · rfl
  · contradiction

theorem zbAddressUpdate_addr {g g' : AddrGlobals} {ieee : IeeeAddr} {s : ℕ} {lock : Bool}
    {ret : Except RetError ℕ}
    (hcall : zbAddressUpdate g ieee s lock = some (g', ret)) (other : ℕ) :
    (ret = .ok other → (g'.addrMap other).addr = s) ∧ (ret ≠ .ok other →
        (g'.addrMap other).addr = (g.addrMap other).addr) := by
  obtain ⟨g₁, c, hcompress, hcases⟩ := zbAddressUpdate_eq_some hcall
  have hmap := (sameEntries_zbIeeeAddrCompress hcompress).1
  rcases hcases with ⟨g₂, found, g₃, htarget, hwritten, rfl, hlock⟩ |
    ⟨-, -, g₂, ret', hadd, hlock⟩
  · obtain ⟨removed, -, -, rfl⟩ := updateTarget_merge htarget
    rw [((sameTranslation_lockResult hlock).entry other).addr, hwritten.addrMap]
    constructor
    · rintro hfound
      obtain rfl := Except.ok.inj hfound
      rw [update_self]
    · intro hother
      have hne : other ≠ found := fun heq => hother (heq ▸ rfl)
      rw [update_of_ne hne]
      cases removed with
      | none => rw [deleteRef, hmap]
      | some dropped =>
        rw [deleteRef, zbAddressDelete_addrMap, update_apply]
        split
        · rename_i heq
          rw [heq, hmap]
        · rw [hmap]
  · rw [((sameTranslation_lockResult hlock).entry other).addr]
    obtain ⟨rfl, -⟩ := lockResult_eq_some hlock
    rcases addrAdd_eq_some hadd with ⟨-, rfl, rfl⟩ | ⟨i, rfl, hadded⟩
    · rw [hmap]
      exact ⟨fun herr => by contradiction, fun _ => rfl⟩
    · constructor
      · intro hfound
        obtain rfl := Except.ok.inj hfound
        exact hadded.addr
      · intro hother
        have hne : other ≠ i := fun heq => hother (heq ▸ rfl)
        rw [(hadded.others other hne).addr, hmap]

theorem childrenKept_zbNwkNeighborGetByIeee {device : IeeeAddr} {row : Option ℕ}
    (hget : zbNwkNeighborGetByIeee zg device = some (zg', row)) :
    zg'.neighbor = zg.neighbor ∧
      (∀ ref, (zg'.addr.addrMap ref).addr = (zg.addr.addrMap ref).addr) ∧
      ∀ n, row = some n → ∃ ref, zg.neighbor.addrToNeighbor ref = n ∧ n ≠ noNeighbor := by
  obtain ⟨⟨addr, ret⟩, hlookup, hrest⟩ := bind_eq_some_iff.mp hget
  have haddr := zbAddressByIeee_addr hlookup
  cases ret with
  | error err =>
    obtain ⟨rfl, rfl⟩ := some_pair_inj hrest
    exact ⟨rfl, haddr, fun _ hn => by contradiction⟩
  | ok ref =>
    obtain ⟨⟨zg₁, row₁⟩, hneighbor, heq⟩ := bind_eq_some_iff.mp hrest
    obtain ⟨hsame, hrow⟩ := zbNwkNeighborGet_find hneighbor
    obtain ⟨rfl, rfl⟩ := some_pair_inj heq
    subst hsame
    refine ⟨rfl, haddr, ?_⟩
    intro n hn
    rw [hrow] at hn
    split at hn
    · contradiction
    · rename_i hpresent
      obtain rfl := some.inj hn
      exact ⟨ref, rfl, hpresent⟩

theorem ChildrenKept.of_lookup (hneighbor : zg'.neighbor = zg.neighbor)
    (haddr : ∀ ref, (zg'.addr.addrMap ref).addr = (zg.addr.addrMap ref).addr) :
    ChildrenKept zg zg' except := by
  refine ⟨fun hrows => hneighbor ▸ hrows, ?_⟩
  intro _ n hchild _
  refine ⟨hneighbor ▸ hchild, ?_, ?_⟩
  · rw [Globals.neighborAddr, haddr, hneighbor]
    rfl
  · rw [hneighbor]

theorem childrenKept_forgetOwnAddress (zg : Globals) (networkAddress : ℕ) :
    ChildrenKept zg (forgetOwnAddress zg networkAddress) fun _ => False := by
  unfold forgetOwnAddress
  split
  · rename_i addr ref hcall
    have hlookup : ChildrenKept zg { zg with addr := addr } fun _ => False :=
      .of_lookup rfl (zbAddressByShort_addr hcall)
    exact hlookup.trans (childrenKept_forgetDevice _ ref)
  · rename_i hcall
    exact .of_lookup rfl (zbAddressByShort_addr hcall)
  · exact .refl _ _

end Kept

/-! ## Accepting a child -/

section Accept

variable {zg zg' : Globals} {router router' : RejoinRouter}
  {device : IeeeAddr} {capability : RejoinCapability} {lqi : UInt8} {s : ℕ}

theorem knownChild_children {known : Option ℕ}
    (hknown : knownChild zg device capability = some (zg', known)) :
    ChildrenKept zg zg' (fun _ => False) ∧
      ∀ n, known = some n → ∃ ref, zg'.neighbor.addrToNeighbor ref = n ∧
        n ≠ noNeighbor := by
  obtain ⟨⟨zg₁, row⟩, hget, hrest⟩ := bind_eq_some_iff.mp hknown
  obtain ⟨hneighbor, haddr, hfound⟩ := childrenKept_zbNwkNeighborGetByIeee hget
  have hkept : ChildrenKept zg zg₁ fun _ => False := .of_lookup hneighbor haddr
  cases row with
  | none =>
    obtain ⟨rfl, rfl⟩ := some_pair_inj hrest
    exact ⟨hkept, fun _ hn => by contradiction⟩
  | some n =>
    dsimp only at hrest
    split at hrest
    · obtain ⟨rfl, rfl⟩ := some_pair_inj hrest
      refine ⟨hkept, ?_⟩
      rintro m hm
      obtain rfl := some.inj hm
      rw [hneighbor]
      exact hfound n rfl
    · obtain ⟨rfl, rfl⟩ := some_pair_inj hrest
      exact ⟨hkept.trans (childrenKept_zbNwkNeighborDelete ..),
        fun _ hn => by contradiction⟩

theorem registerChild_children {row : Option ℕ} (hrows : RowsSound zg.neighbor)
    (hregister : registerChild zg device s = some (zg', row)) :
    ChildrenKept zg zg' (fun n => row = some n) ∧ ∀ n, row = some n → ∃ addr ref,
        zbAddressUpdate zg.addr device s true = some (addr, .ok ref) ∧
        zg'.neighbor.addrToNeighbor ref = n ∧ n ≠ noNeighbor ∧
        (zg'.neighbor.baseNeighbor n).addrRef = ref ∧
        zg'.neighborAddr n = s := by
  obtain ⟨⟨addr, ret⟩, hcall, hrest⟩ := bind_eq_some_iff.mp hregister
  have haddr := zbAddressUpdate_addr hcall
  cases ret with
  | error err =>
    obtain ⟨rfl, rfl⟩ := some_pair_inj hrest
    refine ⟨childrenKept_setAddr ?_, fun _ hn => by contradiction⟩
    intro n _ _
    exact (haddr _).2 (by simp)
  | ok ref =>
    obtain ⟨⟨zg₂, row₂⟩, hget, hlast⟩ := bind_eq_some_iff.mp hrest
    have hrows₁ : RowsSound ({ zg with addr := addr } : Globals).neighbor := hrows
    obtain ⟨hsame, hpresent, hlink, hnone⟩ := zbNwkNeighborGet_link hrows₁ hget
    -- the children whose entry is written have the row of the entry
    have hwritten : ChildrenKept zg { zg with addr := addr } fun n =>
        row₂ = .ok n := by
      apply childrenKept_setAddr
      intro n hother hchild
      apply (haddr _).2
      intro heq
      have hgenuine := hrows.genuine n hchild.lt hchild.used
      rw [← Except.ok.inj heq] at hgenuine
      apply hother
      rw [← hgenuine]
      apply hpresent
      rw [hgenuine]
      exact hrows.row_ne_noNeighbor hchild.lt
    have hkept := hwritten.trans
      ((childrenKept_zbNwkNeighborGet hget).mono fun _ => False.elim)
    cases row₂ with
    | ok n =>
      obtain ⟨rfl, rfl⟩ := some_pair_inj hlast
      refine ⟨hkept.mono fun m hm => congrArg some (Except.ok.inj hm), ?_⟩
      intro m hm
      obtain rfl := some.inj hm
      obtain ⟨hrow, hn⟩ := hlink n rfl
      have hown : (zg₂.neighbor.baseNeighbor n).addrRef = ref := by
        have hlinked := (hkept.rows hrows).linked ref (by rw [hrow]; exact hn)
        rw [hrow] at hlinked
        exact hlinked.2.2
      refine ⟨addr, ref, hcall, hrow, hn, hown, ?_⟩
      rw [Globals.neighborAddr, hown, hsame]
      exact (haddr ref).1 rfl
    | error err =>
      obtain rfl := hnone err rfl
      obtain ⟨addr', hunlock, heq⟩ := bind_eq_some_iff.mp hlast
      obtain ⟨rfl, rfl⟩ := some_pair_inj heq
      obtain ⟨hunlocked, -⟩ := sameTranslation_zbAddressUnlock hunlock
      refine ⟨(hkept.mono fun m hm => by contradiction).trans
        (.of_lookup rfl fun other => (hunlocked.entry other).addr),
        fun _ hn => by contradiction⟩

namespace RejoinRouter

theorem setChildRow_children
    (router : RejoinRouter) {n ref : ℕ} (hrow : router.zg.neighbor.addrToNeighbor ref = n)
    (hn : n ≠ noNeighbor) (capability : RejoinCapability) (lqi : UInt8) :
    ChildrenKept router.zg (router.setChildRow n capability lqi).zg (fun m => m = n) ∧
      (router.setChildRow n capability lqi).zg.neighborAddr n = router.zg.neighborAddr n ∧
      ((router.setChildRow n capability lqi).zg.neighbor.baseNeighbor
        n).addrRef = (router.zg.neighbor.baseNeighbor n).addrRef := by
  have hself : (router.setChildRow n capability lqi).zg.neighbor.baseNeighbor n =
        router.childRow (router.zg.neighbor.baseNeighbor n) capability lqi :=
    update_self ..
  refine ⟨⟨?_, ?_⟩, ?_, ?_⟩
  · intro hrows
    have hpresent : router.zg.neighbor.addrToNeighbor ref ≠ noNeighbor := by
      rw [hrow]
      exact hn
    obtain ⟨-, hused, hown⟩ := hrows.linked ref hpresent
    have hrows' := hrows.rewriteRow hpresent
      (show (router.childRow (router.zg.neighbor.baseNeighbor
        (router.zg.neighbor.addrToNeighbor ref)) capability lqi).used = true
          from hused) hown
    rw [hrow] at hrows'
    exact hrows'
  · intro _ m hchild hother
    have hsame : (router.setChildRow n capability
        lqi).zg.neighbor.baseNeighbor m = router.zg.neighbor.baseNeighbor m :=
      update_of_ne hother ..
    obtain ⟨hlt, hused, hrelationship⟩ := hchild
    rw [hsame] at hused hrelationship
    refine ⟨⟨hlt, hused, hrelationship⟩, ?_, ?_⟩
    · rw [Globals.neighborAddr, hsame]
      rfl
    · rw [hsame]
  · rw [Globals.neighborAddr, hself]
    rfl
  · rw [hself]
    rfl

theorem keepsPlace_zbNwkAcceptChild_known
    (nib : TreeNib) (address : ℕ) (cap : MacCapability) (registered : Bool) :
    nib.KeepsPlace (zbNwkAcceptChild nib (some address) cap registered).1 := by
  unfold zbNwkAcceptChild
  dsimp only
  split
  · exact ⟨rfl, rfl, rfl, rfl, rfl, rfl, Nat.le_refl _, Nat.le_refl _⟩
  · exact .refl nib

inductive AcceptedFrom
    (router : RejoinRouter) (device : IeeeAddr) (capability : RejoinCapability)
    (router' : RejoinRouter) : Prop
  | known (zg : Globals) (n : ℕ)
      (hknown : knownChild router.zg device capability = some (zg, some n))
      (hkept : ChildrenKept zg router'.zg fun m => m = n)
      (haddr : router'.zg.neighborAddr n = zg.neighborAddr n)
  | refused (hkept : ChildrenKept router.zg router'.zg fun _ => False)
  | assigned (zg : Globals) (n s ref : ℕ) (addr : AddrGlobals)
      (hknown : knownChild router.zg device capability = some (zg, none))
      (hjoinable : (router.nib.admitChild capability.toMacCapability).2 = some s)
      (hupdate : zbAddressUpdate zg.addr device s true = some (addr, .ok ref))
      (hcounted : router'.nib.Counted (router.nib.nextSlot capability.isRouter))
      (hkept : ChildrenKept zg router'.zg fun m => m = n)
      (href : (router'.zg.neighbor.baseNeighbor n).addrRef = ref)
      (haddr : router'.zg.neighborAddr n = s)

theorem acceptChild_children {address : Option ℕ} (hrows : RowsSound router.zg.neighbor)
    (haccept : router.acceptChild device capability lqi = some (router', address)) :
    router.nib.KeepsPlace router'.nib ∧
      AcceptedFrom router device capability router' := by
  obtain ⟨⟨zg, known⟩, hknown, hrest⟩ := bind_eq_some_iff.mp haccept
  obtain ⟨hkept₁, hlink⟩ := knownChild_children hknown
  cases known with
  | some n =>
    obtain ⟨rfl, rfl⟩ := some_pair_inj hrest
    obtain ⟨ref, hrow, hn⟩ := hlink n rfl
    obtain ⟨hkept₂, haddr, -⟩ := setChildRow_children
      { router with zg := zg, nib := _ } hrow hn capability lqi
    exact ⟨keepsPlace_zbNwkAcceptChild_known .., .known zg n hknown hkept₂ haddr⟩
  | none =>
    have hspec := zbNwkAcceptChild_spec router.nib capability.toMacCapability
    dsimp only at hrest
    split at hrest
    · rename_i s hjoinable
      obtain ⟨⟨zg₂, row⟩, hregister, hlast⟩ := bind_eq_some_iff.mp hrest
      obtain ⟨hkept₂, hregistered⟩ := registerChild_children (hkept₁.rows hrows) hregister
      cases row with
      | some n =>
        obtain ⟨rfl, rfl⟩ := some_pair_inj hlast
        obtain ⟨addr, ref, hupdate, hrow, hn, hown, haddr⟩ := hregistered n rfl
        obtain ⟨hkept₃, haddr₃, hown₃⟩ := setChildRow_children
          { router with zg := zg₂, nib := _ } hrow hn capability lqi
        refine ⟨(hspec true).1, .assigned zg n s ref addr hknown hjoinable
          hupdate ?_ ?_ (hown₃.trans hown) (haddr₃.trans haddr)⟩
        · rcases (hspec true).2 with hnone | ⟨-, -, hcounted, -⟩
          · have hsome : (zbNwkAcceptChild router.nib none
                capability.toMacCapability true).2 = some s := by
              unfold zbNwkAcceptChild
              dsimp only
              split <;> exact hjoinable
            rw [hsome] at hnone
            contradiction
          · exact hcounted
        · exact (hkept₂.mono fun m hm => (some.inj hm).symm).trans hkept₃
      | none =>
        obtain ⟨rfl, rfl⟩ := some_pair_inj hlast
        exact ⟨(hspec false).1, .refused
          (hkept₁.trans (hkept₂.mono fun _ hm => by contradiction))⟩
    · obtain ⟨rfl, rfl⟩ := some_pair_inj hrest
      exact ⟨(hspec false).1, .refused hkept₁⟩

end RejoinRouter

end Accept

section Assignable

/-- The address after the own one; after a leave this is 0. -/
def TreeNib.firstAddress (nib : TreeNib) : ℕ := (nib.macShortAddress + 1) % 2 ^ 16

def TreeNib.Assignable (nib : TreeNib) (address : ℕ) : Prop :=
  (∃ i < nib.maxRouters, nib.routerChildNum ≤ i ∧
      address = nib.firstAddress + i * nib.cskip) ∨
    ∃ j < nib.maxChildren, nib.edChildNum ≤ j ∧
      address = nib.firstAddress + nib.maxRouters * nib.cskip + j

instance (nib : TreeNib) (address : ℕ) : Decidable (nib.Assignable address) :=
  inferInstanceAs (Decidable (_ ∨ _))

structure TreeNib.AddressesFit (nib : TreeNib) : Prop where
  cskip : 0 < nib.cskip
  fit : nib.firstAddress + nib.maxRouters * nib.cskip + nib.maxChildren ≤
    noShortAddress

variable {nib nib' : TreeNib} {address : ℕ}

theorem TreeNib.KeepsPlace.assignable
    (hkeeps : nib.KeepsPlace nib') (hassignable : nib'.Assignable address) :
    nib.Assignable address := by
  unfold TreeNib.Assignable TreeNib.firstAddress at hassignable ⊢
  rw [hkeeps.maxRouters, hkeeps.maxChildren, hkeeps.cskip,
    hkeeps.macShortAddress] at hassignable
  rcases hassignable with ⟨i, hi, hcounted, heq⟩ | ⟨j, hj, hcounted, heq⟩
  · exact Or.inl ⟨i, hi, hkeeps.routers.trans hcounted, heq⟩
  · exact Or.inr ⟨j, hj, hkeeps.eds.trans hcounted, heq⟩

theorem TreeNib.KeepsPlace.addressesFit
    (hkeeps : nib.KeepsPlace nib') (hfit : nib.AddressesFit) :
    nib'.AddressesFit := by
  refine ⟨hkeeps.cskip ▸ hfit.cskip, ?_⟩
  unfold TreeNib.firstAddress
  rw [hkeeps.macShortAddress, hkeeps.maxRouters, hkeeps.cskip, hkeeps.maxChildren]
  exact hfit.fit

section

variable (hfit : nib.AddressesFit)

include hfit

theorem TreeNib.AddressesFit.router_le {i : ℕ} (hi : i < nib.maxRouters) :
    i * nib.cskip + 1 ≤ nib.maxRouters * nib.cskip := by
  have hnext : (i + 1) * nib.cskip ≤ nib.maxRouters * nib.cskip :=
    Nat.mul_le_mul_right _ hi
  rw [Nat.succ_mul] at hnext
  have hpos := hfit.cskip
  omega

theorem TreeNib.AddressesFit.lt_noShortAddress (hassignable : nib.Assignable address) :
    address < noShortAddress := by
  have hbound := hfit.fit
  rcases hassignable with ⟨i, hi, -, rfl⟩ | ⟨j, hj, -, rfl⟩
  · have hrouter := hfit.router_le hi
    omega
  · omega

theorem TreeNib.AddressesFit.childAddress_eq {isRouter : Bool}
    (hplace : nib.HasPlace isRouter) :
    nib.childAddress isRouter =
      if isRouter then nib.firstAddress + nib.routerChildNum * nib.cskip
      else nib.firstAddress + nib.maxRouters * nib.cskip + nib.edChildNum := by
  have hbound := hfit.fit
  have hroom := hplace.room
  simp only [noShortAddress, TreeNib.firstAddress] at hbound ⊢
  unfold TreeNib.childAddress
  split
  · rename_i hrouter
    have hle := hfit.router_le (hplace.routers hrouter)
    unfold TreeNib.routerAddress
    omega
  · unfold TreeNib.edAddress TreeNib.edAddressSum
    omega

theorem TreeNib.AddressesFit.assignable_childAddress {isRouter : Bool}
    (hplace : nib.HasPlace isRouter) :
    nib.Assignable (nib.childAddress isRouter) := by
  have hroom := hplace.room
  rw [hfit.childAddress_eq hplace]
  split
  · rename_i hrouter
    exact Or.inl ⟨_, hplace.routers hrouter, Nat.le_refl _, rfl⟩
  · exact Or.inr ⟨_, by omega, Nat.le_refl _, rfl⟩

theorem TreeNib.AddressesFit.not_assignable_childAddress {isRouter : Bool}
    (hplace : nib.HasPlace isRouter) (hkeeps : nib.KeepsPlace nib')
    (hcounted : nib'.Counted (nib.nextSlot isRouter)) :
    ¬ nib'.Assignable (nib.childAddress isRouter) := by
  rw [hfit.childAddress_eq hplace]
  unfold TreeNib.Assignable TreeNib.firstAddress
  rw [hkeeps.maxRouters, hkeeps.maxChildren, hkeeps.cskip, hkeeps.macShortAddress]
  unfold TreeNib.nextSlot at hcounted
  split
  · rename_i hrouter
    rw [if_pos hrouter] at hcounted
    have hcounted' : nib.routerChildNum < nib'.routerChildNum := hcounted
    rintro (⟨i, -, hle, heq⟩ | ⟨j, -, -, heq⟩)
    · have hlt : nib.routerChildNum * nib.cskip < i * nib.cskip :=
        Nat.mul_lt_mul_of_pos_right (by omega) hfit.cskip
      omega
    · have hle := hfit.router_le (hplace.routers hrouter)
      omega
  · rename_i hrouter
    rw [if_neg hrouter] at hcounted
    have hcounted' : nib.edChildNum < nib'.edChildNum := hcounted
    rintro (⟨i, hi, -, heq⟩ | ⟨j, -, hle, heq⟩)
    · have hle := hfit.router_le hi
      omega
    · omega

end

end Assignable

structure RejoinRouter.AddressesOwn (router : RejoinRouter) : Prop where
  rows : RowsSound router.zg.neighbor
  fit : router.nib.AddressesFit
  distinct : ∀ m n, router.zg.neighbor.IsChild m → router.zg.neighbor.IsChild n →
      router.zg.neighborAddr m = router.zg.neighborAddr n → m = n
  own : ∀ n, router.zg.neighbor.IsChild n →
    ¬ router.nib.Assignable (router.zg.neighborAddr n)

instance (nt : NeighborTbl) (n : ℕ) : Decidable (nt.IsChild n) :=
  decidable_of_iff (n < nt.baseNeighborUsed ∧ (nt.baseNeighbor n).used = true ∧
      ((nt.baseNeighbor n).relationship = .child ∨
        (nt.baseNeighbor n).relationship = .unauthenticatedChild))
    ⟨fun ⟨hlt, hused, hrelationship⟩ => ⟨hlt, hused, hrelationship⟩,
      fun ⟨hlt, hused, hrelationship⟩ => ⟨hlt, hused, hrelationship⟩⟩

namespace ParentRouter

def SafeAccept (router : RejoinRouter) (device : IeeeAddr)
    (capability : RejoinCapability) : Prop :=
  ∀ result ∈ knownChild router.zg device capability,
    let nt := result.1.neighbor
    (∀ n ∈ result.2, ¬ nt.IsChild n → ¬ router.nib.Assignable (result.1.neighborAddr n) ∧
        ∀ m < nt.baseNeighborUsed, nt.IsChild m →
          result.1.neighborAddr m ≠ result.1.neighborAddr n) ∧
    (result.2 = none → capability.allocateAddress = false →
      ∀ written ∈ zbAddressUpdate result.1.addr device noShortAddress true,
        ∀ m < nt.baseNeighborUsed, nt.IsChild m →
          result.1.neighborAddr m = noShortAddress →
            written.2.toOption = some (nt.baseNeighbor m).addrRef)

instance (router : RejoinRouter) (device : IeeeAddr) (capability : RejoinCapability) :
    Decidable (SafeAccept router device capability) :=
  inferInstanceAs (Decidable (∀ result ∈ knownChild router.zg device capability,
    _ ∧ (result.2 = none → capability.allocateAddress = false →
      ∀ written ∈ zbAddressUpdate result.1.addr device noShortAddress true,
        ∀ m < result.1.neighbor.baseNeighborUsed,
          result.1.neighbor.IsChild m → _ = _ → _ = _)))

def SafeLeave (router : RejoinRouter) (r : LeaveRequest) : Prop :=
  ∀ result ∈ zbNwkNeighborGetByIeee router.zg r.deviceAddress, ∀ n ∈ result.2,
      (result.1.neighbor.baseNeighbor n).relationship = .child →
        ¬ router.nib.IsLastEdAddress (result.1.neighborAddr n)

instance (router : RejoinRouter) (r : LeaveRequest) :
    Decidable (SafeLeave router r) :=
  inferInstanceAs (Decidable (∀ result ∈ zbNwkNeighborGetByIeee router.zg r.deviceAddress,
      ∀ n ∈ result.2, _ → ¬ _))

/-- No child has an address to which the counters lead from the address 0xFFFF. -/
def SafeOwnLeave (router : RejoinRouter) (rejoin : Bool) : Prop :=
  rejoin = false → ∀ n < router.zg.neighbor.baseNeighborUsed,
    router.zg.neighbor.IsChild n →
      ¬ { router.nib with macShortAddress := 0xFFFF }.Assignable (router.zg.neighborAddr n)

instance (router : RejoinRouter) (rejoin : Bool) :
    Decidable (SafeOwnLeave router rejoin) :=
  inferInstanceAs (Decidable (_ → ∀ n < _, _ → ¬ _))

def Safe (parent : ParentRouter) : ParentEvent → Prop
  | .accept device capability _ => SafeAccept parent.router device capability
  | .leaveRequest r => SafeLeave parent.router r
  | .leaveConfirm mgmtRsp success rejoin device =>
      ¬ mgmtRsp ∧ success ∧ device = .zero → SafeOwnLeave parent.router rejoin
  | .leaveIndication device rejoin => device = .zero → SafeOwnLeave parent.router rejoin
  | .doLeave rejoin => SafeOwnLeave parent.router rejoin
  | .forget _ => True

instance (parent : ParentRouter) (event : ParentEvent) :
    Decidable (parent.Safe event) := by
  unfold Safe
  split <;> infer_instance

def LeavesItself (parent : ParentRouter) (r : LeaveRequest) : Prop :=
  ∃ left command, zbNlmeLeaveRequest parent r = some (left, .nwkForward command) ∧
    command.request = false ∧
    left.router.nib.edChildNum = parent.router.nib.edChildNum

end ParentRouter

section Runs

variable {router router' : RejoinRouter} {parent next : ParentRouter}
  {device : IeeeAddr} {capability : RejoinCapability}

section

variable (hown : router.AddressesOwn)

include hown

theorem RejoinRouter.AddressesOwn.addressesFree : router.AddressesFree := by
  refine ⟨hown.distinct, ?_⟩
  intro cap hallocate address haddress n hchild heq
  rcases (router.nib.admitChild_spec cap).2 with hnone | ⟨hplace, -, hsome⟩
  · rw [hnone] at haddress
    contradiction
  · rw [hsome, if_pos hallocate] at haddress
    obtain rfl := some.inj haddress
    apply hown.own n hchild
    rw [heq]
    exact hown.fit.assignable_childAddress hplace

theorem RejoinRouter.AddressesOwn.keep (hnib : router.nib.KeepsPlace router'.nib)
    (hkept : ChildrenKept router.zg router'.zg fun _ => False) :
    router'.AddressesOwn := by
  refine ⟨hkept.rows hown.rows, hnib.addressesFit hown.fit, ?_, ?_⟩
  · intro m n hm hn heq
    obtain ⟨hm', haddr, -⟩ := hkept.child hown.rows m hm not_false
    obtain ⟨hn', haddr', -⟩ := hkept.child hown.rows n hn not_false
    exact hown.distinct m n hm' hn' (by rw [← haddr, ← haddr', heq])
  · intro n hn hassignable
    obtain ⟨hn', haddr, -⟩ := hkept.child hown.rows n hn not_false
    rw [haddr] at hassignable
    exact hown.own n hn' (hnib.assignable hassignable)

theorem RejoinRouter.AddressesOwn.join {n : ℕ} (hnib : router.nib.KeepsPlace router'.nib)
    (hkept : ChildrenKept router.zg router'.zg fun m => m = n)
    (hother : router'.zg.neighbor.IsChild n → ∀ m, m ≠ n → router'.zg.neighbor.IsChild m →
        router'.zg.neighborAddr m ≠ router'.zg.neighborAddr n)
    (hfresh : router'.zg.neighbor.IsChild n →
      ¬ router'.nib.Assignable (router'.zg.neighborAddr n)) :
    router'.AddressesOwn := by
  refine ⟨hkept.rows hown.rows, hnib.addressesFit hown.fit, ?_, ?_⟩
  · intro l m hl hm heq
    by_cases hln : l = n
    · by_cases hmn : m = n
      · rw [hln, hmn]
      · rw [hln] at hl heq
        exact absurd heq.symm (hother hl m hmn hm)
    · by_cases hmn : m = n
      · rw [hmn] at hm heq
        exact absurd heq (hother hm l hln hl)
      · obtain ⟨hl', haddr, -⟩ := hkept.child hown.rows l hl hln
        obtain ⟨hm', haddr', -⟩ := hkept.child hown.rows m hm hmn
        exact hown.distinct l m hl' hm' (by rw [← haddr, ← haddr', heq])
  · intro m hm hassignable
    by_cases hmn : m = n
    · rw [hmn] at hm hassignable
      exact hfresh hm hassignable
    · obtain ⟨hm', haddr, -⟩ := hkept.child hown.rows m hm hmn
      rw [haddr] at hassignable
      exact hown.own m hm' (hnib.assignable hassignable)

theorem RejoinRouter.AddressesOwn.lookup {zg : Globals} {row : Option ℕ}
    (hget : zbNwkNeighborGetByIeee router.zg device = some (zg, row)) :
    ({ router with zg := zg } : RejoinRouter).AddressesOwn := by
  obtain ⟨hneighbor, haddr, -⟩ := childrenKept_zbNwkNeighborGetByIeee hget
  exact hown.keep (.refl _) (.of_lookup hneighbor haddr)

theorem RejoinRouter.AddressesOwn.accept {lqi : UInt8} {address : Option ℕ}
    (hsafe : ParentRouter.SafeAccept router device capability)
    (haccept : router.acceptChild device capability lqi =
      some (router', address)) : router'.AddressesOwn := by
  obtain ⟨hnib, hfrom⟩ := acceptChild_children hown.rows haccept
  cases hfrom with
  | refused hkept => exact hown.keep hnib hkept
  | known zg n hknown hkept haddr =>
    have hown₁ : ({ router with zg := zg } : RejoinRouter).AddressesOwn :=
      hown.keep (.refl _) (knownChild_children hknown).1
    obtain ⟨hforeign, -⟩ := hsafe _ hknown
    refine hown₁.join hnib hkept ?_ ?_
    · intro _ m hmn hm
      obtain ⟨hm', haddr', -⟩ := hkept.child hown₁.rows m hm hmn
      rw [haddr, haddr']
      by_cases hn : zg.neighbor.IsChild n
      · exact fun heq => hmn (hown₁.distinct m n hm' hn heq)
      · exact (hforeign n rfl hn).2 m hm'.lt hm'
    · intro _ hassignable
      rw [haddr] at hassignable
      have hassignable' := hnib.assignable hassignable
      by_cases hn : zg.neighbor.IsChild n
      · exact hown₁.own n hn hassignable'
      · exact (hforeign n rfl hn).1 hassignable'
  | assigned zg n s ref addr hknown hjoinable hupdate hcounted hkept href haddr =>
    have hown₁ : ({ router with zg := zg } : RejoinRouter).AddressesOwn :=
      hown.keep (.refl _) (knownChild_children hknown).1
    obtain ⟨-, htakes⟩ := hsafe _ hknown
    rcases (router.nib.admitChild_spec capability.toMacCapability).2 with
      hnone | ⟨hplace, -, hsome⟩
    · rw [hjoinable] at hnone
      contradiction
    rw [hjoinable, some.injEq] at hsome
    cases hallocate : capability.allocateAddress with
    | true =>
      rw [if_pos hallocate] at hsome
      have hassignable := hown.fit.assignable_childAddress hplace
      refine hown₁.join hnib hkept ?_ ?_
      · intro _ m hmn hm heq
        obtain ⟨hm', haddr', -⟩ := hkept.child hown₁.rows m hm hmn
        apply hown₁.own m hm'
        rw [← haddr', heq, haddr, hsome]
        exact hassignable
      · intro _
        rw [haddr, hsome]
        exact hown.fit.not_assignable_childAddress hplace hnib hcounted
    | false =>
      rw [hallocate, if_neg Bool.false_ne_true] at hsome
      have hnew := htakes rfl hallocate
      rw [← hsome] at hnew
      refine hown₁.join hnib hkept ?_ ?_
      · intro hn m hmn hm heq
        obtain ⟨hm', haddr', href'⟩ := hkept.child hown₁.rows m hm hmn
        -- the other child has the entry which has been written
        have htaken := hnew _ hupdate m hm'.lt hm' (by
          change zg.neighborAddr m = s
          rw [← haddr', heq, haddr])
        have hrefs : ref = (zg.neighbor.baseNeighbor m).addrRef := some.inj htaken
        have hrows' := hkept.rows hown₁.rows
        have hrowm := hrows'.genuine m hm.lt hm.used
        have hrown := hrows'.genuine n hn.lt hn.used
        rw [href', ← hrefs] at hrowm
        rw [href] at hrown
        exact hmn (hrowm.symm.trans hrown)
      · intro _ hassignable
        rw [haddr, hsome] at hassignable
        exact Nat.lt_irrefl _ ((hnib.addressesFit hown.fit).lt_noShortAddress hassignable)

end

theorem RejoinRouter.AddressesOwn.leaveRequest
    {r : LeaveRequest} {call : LeaveCall} (hown : parent.router.AddressesOwn)
    (hsafe : ParentRouter.SafeLeave parent.router r)
    (hleave : zbNlmeLeaveRequest parent r = some (next, call)) :
    next.router.AddressesOwn := by
  unfold zbNlmeLeaveRequest at hleave
  dsimp only at hleave
  split at hleave
  · split at hleave
    · obtain ⟨⟨zg, row⟩, hget, hrest⟩ := bind_eq_some_iff.mp hleave
      have hown₁ := hown.lookup hget
      cases row with
      | none =>
        obtain ⟨rfl, -⟩ := some_pair_inj hrest
        exact hown₁
      | some n =>
        dsimp only at hrest
        split at hrest
        · obtain ⟨rfl, -⟩ := some_pair_inj hrest
          exact hown₁
        · rename_i hchild
          obtain ⟨rfl, -⟩ := some_pair_inj hrest
          have hlast := hsafe _ hget n rfl hchild
          refine hown₁.keep ?_ (.refl _ _)
          change parent.router.nib.KeepsPlace
            (if parent.router.nib.IsLastEdAddress (zg.neighborAddr n) then
              parent.router.nib.dropEdChild else parent.router.nib)
          rw [if_neg hlast]
          exact .refl _
        · obtain ⟨rfl, -⟩ := some_pair_inj hrest
          exact hown₁
    · contradiction
  · obtain ⟨rfl, -⟩ := some_pair_inj hleave
    exact hown

theorem RejoinRouter.AddressesOwn.setZg {zg : Globals} (hown : parent.router.AddressesOwn)
    (hkept : ChildrenKept parent.router.zg zg fun _ => False) :
    (parent.setZg zg).router.AddressesOwn :=
  hown.keep (.refl _) hkept

theorem RejoinRouter.AddressesOwn.doLeave {rejoin : Bool}
    (hown : parent.router.AddressesOwn)
    (hsafe : ParentRouter.SafeOwnLeave parent.router rejoin) :
    (zbNwkDoLeave parent rejoin).router.AddressesOwn := by
  have hjoined : ChildrenKept parent.router.zg { parent.router.zg with joined := false }
      fun _ => False := .of_lookup rfl fun _ => rfl
  unfold zbNwkDoLeave
  cases rejoin with
  | true => exact hown.keep (.refl _) hjoined
  | false =>
    dsimp only
    rw [if_neg Bool.false_ne_true]
    have hkept := hjoined.trans
      (childrenKept_forgetOwnAddress _ parent.router.nib.macShortAddress)
    generalize forgetOwnAddress _ parent.router.nib.macShortAddress = zg at hkept ⊢
    have hleft : ({ parent.router with zg := zg } : RejoinRouter).AddressesOwn :=
      hown.keep (.refl _) hkept
    obtain ⟨hrows, -, hdistinct, -⟩ := hleft
    refine ⟨hrows, ⟨hown.fit.cskip, ?_⟩, hdistinct, ?_⟩
    · have hbound := hown.fit.fit
      change (0xFFFF + 1) % 2 ^ 16 + parent.router.nib.maxRouters *
        parent.router.nib.cskip + parent.router.nib.maxChildren ≤ noShortAddress
      omega
    · intro n hchild
      obtain ⟨hchild', haddr, -⟩ := hkept.child hown.rows n hchild not_false
      have hleft := hsafe rfl n hchild'.lt hchild'
      rw [← haddr] at hleft
      exact hleft

theorem RejoinRouter.AddressesOwn.step
    {event : ParentEvent} (hown : parent.router.AddressesOwn)
    (hsafe : parent.Safe event) (hstep : parent.step event = some next) :
    next.router.AddressesOwn := by
  cases event with
  | accept device capability lqi =>
    obtain ⟨⟨accepted, address⟩, haccept, rfl⟩ := map_eq_some_iff.mp hstep
    exact hown.accept hsafe haccept
  | leaveRequest r =>
    obtain ⟨⟨left, call⟩, hleave, rfl⟩ := map_eq_some_iff.mp hstep
    exact hown.leaveRequest hsafe hleave
  | leaveConfirm mgmtRsp success rejoin device =>
    change zbNlmeLeaveConfirm parent mgmtRsp success rejoin device = some next at hstep
    unfold zbNlmeLeaveConfirm at hstep
    split at hstep
    · obtain rfl := some.inj hstep
      exact hown
    · rename_i hmgmt
      split at hstep
      · rename_i hlocal
        obtain rfl := some.inj hstep
        exact hown.doLeave (hsafe ⟨hmgmt, hlocal⟩)
      · obtain ⟨⟨zg, row⟩, hget, hrest⟩ := bind_eq_some_iff.mp hstep
        cases row with
        | none => contradiction
        | some n =>
          obtain rfl := some.inj hrest
          exact (hown.lookup hget).keep (.refl _) (childrenKept_zbNwkNeighborDelete ..)
  | leaveIndication device rejoin =>
    change zbNlmeLeaveIndication parent device rejoin = some next at hstep
    unfold zbNlmeLeaveIndication at hstep
    split at hstep
    · rename_i hlocal
      obtain rfl := some.inj hstep
      exact hown.doLeave (hsafe hlocal)
    · obtain ⟨⟨zg, row⟩, hget, hrest⟩ := bind_eq_some_iff.mp hstep
      cases row with
      | none =>
        obtain rfl := some.inj hrest
        exact hown.lookup hget
      | some n =>
        obtain rfl := some.inj hrest
        exact (hown.lookup hget).keep (.refl _) (childrenKept_forgetDevice ..)
  | doLeave rejoin =>
    obtain rfl := some.inj hstep
    exact hown.doLeave hsafe
  | forget ref =>
    obtain rfl := some.inj hstep
    exact hown.setZg (childrenKept_forgetDevice ..)

theorem not_leavesItself {r : LeaveRequest} (hjoined : parent.router.zg.joined = true)
    (hzero : r.deviceAddress = .zero) : ¬ parent.LeavesItself r := by
  rintro ⟨left, command, hleave, -⟩
  unfold zbNlmeLeaveRequest at hleave
  rw [if_pos hjoined, if_neg (fun h => h.1 hzero)] at hleave
  contradiction

/-- As long as no request is about the child with the last address of an end device,
and the children do not have the first addresses when the device leaves, the next
child gets an address which no child has; a request of a router for itself fails in
any case. -/
theorem addressesFree_of_run (parent : ParentRouter)
    (events : List ParentEvent) (r : LeaveRequest) :
    (parent.router.AddressesOwn →
      AlongRun ParentRouter.step ParentRouter.Safe parent events →
        EveryState ParentRouter.step (fun state => state.router.AddressesFree)
          parent events) ∧
      (parent.router.zg.joined = true → r.deviceAddress = .zero →
        ¬ parent.LeavesItself r) := by
  refine ⟨?_, fun hjoined hzero => not_leavesItself hjoined hzero⟩
  intro hown hsafe
  exact @everyState_of_invariant _ _ ParentRouter.step ParentRouter.Safe
    (fun state => state.router.AddressesOwn) _
    (fun _ _ _ hown hsafe hstep => hown.step hsafe hstep)
    (fun _ hown => hown.addressesFree) _ _ hown hsafe

end Runs

def parentCoordinator : ParentRouter where
  router :=
    { RejoinRun.rejoinCoordinator with
      zg := { RejoinRun.rejoinCoordinator.zg with joined := true } }
  deviceType := .coordinator

theorem addressesOwn_coordinator : parentCoordinator.router.AddressesOwn :=
  ⟨rowsSound_init, ⟨by decide +kernel, by decide +kernel⟩,
    fun _ _ hm => absurd hm.lt (Nat.not_lt_zero _),
    fun _ hn => absurd hn.lt (Nat.not_lt_zero _)⟩

def childDevice (id : UInt8) : IeeeAddr := ⟨⟨1, 0, 0⟩, ⟨id, 2, 0, 0, 0⟩⟩

def acceptOf (id : UInt8) : ParentEvent :=
  .accept (childDevice id) ⟨⟨false, true⟩, true⟩ 200

def leaveOf (id : UInt8) : ParentEvent :=
  .leaveRequest ⟨childDevice id, false, false⟩

/-- The first of two end devices leaves, and another one joins. -/
theorem addressesFree_firstLeaves :
    EveryState ParentRouter.step (fun state => state.router.AddressesFree)
        parentCoordinator
        [acceptOf 1, acceptOf 2, leaveOf 1,
          .leaveConfirm false true false (childDevice 1), acceptOf 3] ∧
      ¬ parentCoordinator.LeavesItself ⟨.zero, false, false⟩ :=
  ⟨(addressesFree_of_run parentCoordinator _
      ⟨.zero, false, false⟩).1 addressesOwn_coordinator (by decide +kernel),
    (addressesFree_of_run parentCoordinator [] ⟨.zero, false, false⟩).2 rfl rfl⟩

/-- The second one is asked to leave: its address is free from then on, while
it is still a neighbor. -/
theorem not_addressesFree_secondLeaves :
    ¬ EveryState ParentRouter.step (fun state => state.router.AddressesFree)
      parentCoordinator [acceptOf 1, acceptOf 2, leaveOf 2] := by
  intro hevery
  have hobserved : (run ParentRouter.step parentCoordinator
        [acceptOf 1, acceptOf 2, leaveOf 2]).map (fun parent =>
          (decide (parent.router.zg.neighbor.IsChild 1), parent.router.zg.neighborAddr 1,
            (parent.router.nib.admitChild ⟨false, true⟩).2)) =
        some (true, 12, some 12) := by
    decide +kernel
  obtain ⟨parent, hrun, heq⟩ := map_eq_some_iff.mp hobserved
  simp only [Prod.mk.injEq, decide_eq_true_eq] at heq
  obtain ⟨hchild, haddr, hjoinable⟩ := heq
  exact (hevery.last hrun).free ⟨false, true⟩ rfl 12 hjoinable 1 hchild haddr

end Zboss
