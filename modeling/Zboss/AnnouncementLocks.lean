import Zboss.KnownAddresses
import Zboss.AddressUpdateCorrectness
import Zboss.DeviceAnnouncements
import Zboss.NeighborLockBalance

/-!
# Locks for announced addresses

Each announcement, each found peer address and each confirm of an own
announcement locks an entry of the address table once more, and nothing unlocks
it.  The locks stay within the number of tables which refer to the entry as long
as each of these events is for an entry with fewer locks than tables.
-/

namespace Zboss

open Function Option AnnceEvent TransitionSystem

/-- The tables besides the neighbor table which refer to entries of the address
table: source and destination bindings, and the parent. -/
structure AddressHolders where
  bindSrc : ℕ → Bool
  bindDst : ℕ → Bool
  parent : ℕ → Bool

namespace AddressHolders

variable (held : AddressHolders)

def holders (zg : Globals) (ref : ℕ) : ℕ :=
  (if InNeighborTable zg ref then 1 else 0) + (held.bindSrc ref).toNat +
    (held.bindDst ref).toNat + (held.parent ref).toNat

/-- No entry has more locks than tables which refer to it, so that it can be
locked again, and is not locked where there is none. -/
structure LocksBounded (zg : Globals) : Prop where
  bounded : ∀ ref, (zg.addr.addrMap ref).lockCnt ≤ held.holders zg ref
  lockable : ∀ ref, (zbAddressLock zg.addr ref).isSome
  removable : ∀ ref, held.holders zg ref = 0 → (zg.addr.addrMap ref).lockCnt = 0

end AddressHolders

def updateRef (g : AddrGlobals) (ieeeAddr : IeeeAddr) (shortAddr : ℕ) :
    Option ℕ := do
  let (g, compressed) ← zbIeeeAddrCompress g ieeeAddr
  let (_, target) ←
    updateTarget g (shortSearch g shortAddr) (ieeeSearch g compressed)
  target.orElse fun _ => freeEntry g (some compressed)

def AnnceEvent.target (zg : Globals) : AnnceEvent → Option ℕ
  | .deviceAnnce annce => updateRef zg.addr annce.ieeeAddr annce.nwkAddr
  | .peerShortAddr status ieeeAddr nwkAddr =>
      if status = 0 then updateRef zg.addr ieeeAddr nwkAddr else none
  | .ownAnnceConfirm shortAddress =>
      (shortSearch zg.addr shortAddress).orElse fun _ => freeEntry zg.addr none

/-- Unless the event ends in an assertion, its entry has fewer locks than tables
which refer to it. -/
def AnnceEvent.HasRoom (self : AnnceReceiver) (held : AddressHolders) (zg : Globals)
    (event : AnnceEvent) : Prop :=
  (event.apply self zg).isSome → ∀ ref ∈ event.target zg,
    (zg.addr.addrMap ref).lockCnt < held.holders zg ref

section Locks

variable {g g' : AddrGlobals} {ret : Except RetError ℕ}

def GainsLock (g g' : AddrGlobals) (ref : Option ℕ) : Prop :=
  ∀ other, ((g'.addrMap other).lockCnt : ℕ) =
    (g.addrMap other).lockCnt + if ref = some other then 1 else 0

theorem gainsLock_of_eq
    (hsame : ∀ ref, (g'.addrMap ref).lockCnt = (g.addrMap ref).lockCnt) :
    GainsLock g g' none := by
  intro other
  rw [hsame other]
  rfl

theorem GainsLock.trans_same {g'' : AddrGlobals} {ref : Option ℕ}
    (hfirst : GainsLock g g' none) (hsecond : GainsLock g' g'' ref) :
    GainsLock g g'' ref := by
  intro other
  rw [hsecond other, hfirst other]
  rfl

theorem lockCnt_succ : ∀ cnt : Fin 16, cnt + 1 ≠ 0 →
    ((cnt + 1 : Fin 16) : ℕ) = cnt + 1 := by
  decide

theorem gainsLock_zbAddressLock {ref : ℕ}
    (hlock : zbAddressLock g ref = some g') : GainsLock g g' (some ref) := by
  obtain ⟨hwrap, rfl⟩ := zbAddressLock_eq_some hlock
  intro other
  by_cases hother : other = ref
  · subst other
    simp only [AddrGlobals.setEntry, update_self, if_true]
    exact lockCnt_succ _ hwrap
  · simp [AddrGlobals.setEntry, update_of_ne hother, Ne.symm hother]

theorem gainsLock_lockResult {ret' : Except RetError ℕ}
    (hresult : lockResult true g ret = some (g', ret')) :
    ret' = ret ∧ GainsLock g g' ret.toOption := by
  cases ret with
  | error err =>
    obtain ⟨rfl, rfl | ⟨_, -, herror, -⟩⟩ := lockResult_eq_some hresult
    · exact ⟨rfl, gainsLock_of_eq fun _ => rfl⟩
    · cases herror
  | ok ref =>
    rw [lockResult, map_eq_some_iff] at hresult
    obtain ⟨locked, hlock, heq⟩ := hresult
    obtain ⟨rfl, rfl⟩ := Prod.mk.inj heq
    exact ⟨rfl, gainsLock_zbAddressLock hlock⟩

theorem AddedAt.gainsLock {compressed : Option IeeeAddrCompressed}
    {shortAddr i : ℕ} (hadded : AddedAt g compressed shortAddr i g') :
    GainsLock g g' none := by
  apply gainsLock_of_eq
  intro ref
  by_cases href : ref = i
  · rw [href]
    exact hadded.lockCnt
  · exact (hadded.others ref href).lockCnt

theorem gainsLock_addrAdd {compressed : Option IeeeAddrCompressed} {shortAddr : ℕ}
    {added : AddrGlobals} {ret' : Except RetError ℕ}
    (hadd : addrAdd g compressed shortAddr = some (added, ret'))
    (hlock : lockResult true added ret' = some (g', ret)) :
    freeEntry g compressed = ret.toOption ∧ GainsLock g g' ret.toOption := by
  obtain ⟨rfl, hgains⟩ := gainsLock_lockResult hlock
  rcases addrAdd_eq_some hadd with ⟨hfull, rfl, rfl⟩ | ⟨i, rfl, hadded⟩
  · exact ⟨hfull, hgains⟩
  · exact ⟨hadded.free, hadded.gainsLock.trans_same hgains⟩

theorem gainsLock_zbAddressByShort {shortAddress : ℕ}
    (hcall : zbAddressByShort g shortAddress true true = some (g', ret)) :
    ((shortSearch g shortAddress).orElse fun _ => freeEntry g none) = ret.toOption ∧
      GainsLock g g' ret.toOption := by
  rcases zbAddressByShort_eq_some hcall with ⟨ref, hfound, rfl, hlock⟩ |
    ⟨-, hcreate, -⟩ | ⟨habsent, -, added, ret', hadd, hlock⟩
  · have hmarked : GainsLock g (g.markClock ref) none := gainsLock_of_eq
      fun other => ((sameTable_markClock g ref).entry other).lockCnt
    rw [hfound]
    exact ⟨rfl, hmarked.trans_same (gainsLock_lockResult hlock).2⟩
  · cases hcreate
  · rw [habsent]
    exact gainsLock_addrAdd hadd hlock

theorem gainsLock_zbAddressUpdate {ieeeAddr : IeeeAddr} {shortAddr : ℕ}
    (hcall : zbAddressUpdate g ieeeAddr shortAddr true = some (g', ret)) :
    updateRef g ieeeAddr shortAddr = ret.toOption ∧
      GainsLock g g' ret.toOption := by
  obtain ⟨g₁, c, hcompress, hcases⟩ := zbAddressUpdate_eq_some hcall
  have hfirst : GainsLock g g₁ none := gainsLock_of_eq fun ref => by
    rw [(sameEntries_zbIeeeAddrCompress hcompress).1]
  rw [updateRef, hcompress]
  rcases hcases with ⟨g₂, ref, g₃, htarget, hwritten, rfl, hlock⟩ |
    ⟨hshort, hlong, added, ret', hadd, hlock⟩
  · obtain ⟨removed, -, -, rfl⟩ := updateTarget_merge htarget
    have hdeleted : GainsLock g₁ (deleteRef g₁ removed) none := by
      apply gainsLock_of_eq
      intro other
      cases removed with
      | none => rfl
      | some gone =>
        rw [deleteRef, zbAddressDelete_addrMap, update_apply]
        split
        case isTrue heq => rw [heq]
        case isFalse => rfl
    have hupdated : GainsLock (deleteRef g₁ removed) g₃ none := by
      apply gainsLock_of_eq
      intro other
      rw [hwritten.addrMap, update_apply]
      split
      case isTrue heq => rw [heq]
      case isFalse => rfl
    refine ⟨?_, hfirst.trans_same (hdeleted.trans_same
      (hupdated.trans_same (gainsLock_lockResult hlock).2))⟩
    simp [htarget]
    rfl
  · obtain ⟨hfree, hgains⟩ := gainsLock_addrAdd hadd hlock
    refine ⟨?_, hfirst.trans_same hgains⟩
    simp [hshort, hlong, updateTarget, hfree]

end Locks

section LookUp

variable {g g' : AddrGlobals} {ieeeAddr : IeeeAddr} {c : IeeeAddrCompressed}

theorem SameTable.freeEntry_eq (hsame : SameTable g g')
    (c : Option IeeeAddrCompressed) : freeEntry g' c = freeEntry g c := by
  simp only [freeEntry, (hsame.entry _).used]

theorem SameTable.updateTarget_eq (hsame : SameTable g g') (short long : Option ℕ) :
    (updateTarget g' short long).map Prod.snd =
      (updateTarget g short long).map Prod.snd := by
  cases short with
  | none => cases long <;> rfl
  | some ref =>
    cases long with
    | none => rfl
    | some refLong =>
      simp only [updateTarget, (hsame.entry _).lockCnt]
      split
      · split
        · rfl
        · split <;> rfl
      · rfl

theorem updateRef_of_compress (hcompress : zbIeeeAddrCompress g ieeeAddr = some (g', c))
    (shortAddr : ℕ) :
    updateRef g ieeeAddr shortAddr =
      ((updateTarget g' (shortSearch g' shortAddr) (ieeeSearch g' c)).map
        Prod.snd).bind fun target => target.orElse fun _ => freeEntry g' (some c) := by
  rw [updateRef, hcompress, Option.bind_map]
  rfl

theorem zbAddressByIeee_updateRef {ret : Except RetError ℕ}
    (hcall : zbAddressByIeee g ieeeAddr false false = some (g', ret))
    (shortAddr : ℕ) :
    updateRef g' ieeeAddr shortAddr = updateRef g ieeeAddr shortAddr ∧
      GainsLock g g' none := by
  obtain ⟨g₁, c, hcompress, hcases⟩ := zbAddressByIeee_eq_some hcall
  have hsame : SameTable g₁ g' := by
    rcases hcases with ⟨ref, -, -, hlock⟩ | ⟨-, -, rfl, -⟩ | ⟨-, hcreate, -⟩
    · obtain ⟨-, rfl | ⟨_, hfalse, -⟩⟩ := lockResult_eq_some hlock
      · exact sameTable_markClock g₁ ref
      · cases hfalse
    · exact .refl g'
    · cases hcreate
  obtain ⟨i, hslot, rfl, hg₁⟩ := zbIeeeAddrCompress_eq_some hcompress
  have hused : g'.usedManufacturer =
      update g.usedManufacturer i true := by
    rw [hsame.usedManufacturer, hg₁]
  have hdev : g'.devManufacturer =
      update g.devManufacturer i ieeeAddr.deviceManufacturer := by
    rw [hsame.devManufacturer, hg₁]
  have hcompress' : zbIeeeAddrCompress g' ieeeAddr =
      some (g', ⟨i, ieeeAddr.deviceId⟩) :=
    zbIeeeAddrCompress_of_usedSlot (usedSlot_of_manufacturerSlot hslot hused hdev)
  constructor
  · rw [updateRef_of_compress hcompress', updateRef_of_compress hcompress,
      hsame.shortSearch, hsame.ieeeSearch_eq, hsame.updateTarget_eq,
      hsame.freeEntry_eq]
  · apply gainsLock_of_eq
    intro ref
    rw [(hsame.entry ref).lockCnt, (sameEntries_zbIeeeAddrCompress hcompress).1]

end LookUp

/-! ## Bounded locks -/

section Bounded

variable {held : AddressHolders} {zg zg' : Globals} {ref : ℕ}

open AddressHolders

theorem holders_le (held : AddressHolders) (zg : Globals) (ref : ℕ) :
    held.holders zg ref ≤ 4 := by
  have hsrc := (held.bindSrc ref).toNat_le
  have hdst := (held.bindDst ref).toNat_le
  have hparent := (held.parent ref).toNat_le
  rw [holders]
  split <;> omega

theorem locksBounded_of_le (hbounded : ∀ ref,
      ((zg.addr.addrMap ref).lockCnt : ℕ) ≤ held.holders zg ref) :
    held.LocksBounded zg where
  bounded := hbounded
  lockable ref := by
    have hle := (hbounded ref).trans (holders_le held zg ref)
    have hwrap : (zg.addr.addrMap ref).lockCnt + 1 ≠ 0 := by
      intro hzero
      have hlast : ∀ cnt : Fin 16, cnt + 1 = 0 → (cnt : ℕ) = 15 := by decide
      rw [hlast _ hzero] at hle
      contradiction
    rw [zbAddressLock, if_neg hwrap]
    rfl
  removable ref hnone := by
    have hle := hbounded ref
    rw [hnone, Nat.le_zero] at hle
    exact Fin.ext hle

theorem holders_congr (hneighbor : InNeighborTable zg' ref ↔ InNeighborTable zg ref) :
    held.holders zg' ref = held.holders zg ref := by
  rw [holders, holders]
  simp only [hneighbor]

def Effect (held : AddressHolders) (zg zg' : Globals) (target : Option ℕ) :
    Prop :=
  ∃ row : Option ℕ, ∀ ref,
    ((zg'.addr.addrMap ref).lockCnt : ℕ) = (zg.addr.addrMap ref).lockCnt +
        (if target = some ref then 1 else 0) +
        (if row = some ref then 1 else 0) ∧
      held.holders zg' ref = held.holders zg ref + if row = some ref then 1 else 0

theorem Effect.bounded_iff {target : Option ℕ}
    (heffect : Effect held zg zg' target) (hbounded : held.LocksBounded zg) :
    held.LocksBounded zg' ↔ ∀ ref ∈ target,
      ((zg.addr.addrMap ref).lockCnt : ℕ) < held.holders zg ref := by
  obtain ⟨row, hcounts⟩ := heffect
  constructor
  · intro hbounded' ref htarget
    have hle := hbounded'.bounded ref
    obtain ⟨hlocks, hholders⟩ := hcounts ref
    rw [hlocks, hholders, if_pos (mem_def.mp htarget)] at hle
    omega
  · intro hroom
    apply locksBounded_of_le
    intro ref
    obtain ⟨hlocks, hholders⟩ := hcounts ref
    rw [hlocks, hholders]
    have hle := hbounded.bounded ref
    by_cases htarget : target = some ref
    case pos =>
      have hlt := hroom ref htarget
      rw [if_pos htarget]
      omega
    case neg =>
      rw [if_neg htarget]
      omega

theorem Effect.of_gains {target : Option ℕ} (hgains : GainsLock zg.addr zg'.addr target)
    (hneighbor : zg'.neighbor.addrToNeighbor = zg.neighbor.addrToNeighbor) :
    Effect held zg zg' target := by
  refine ⟨none, fun ref => ⟨hgains ref, ?_⟩⟩
  exact holders_congr (by rw [InNeighborTable, hneighbor]; rfl)

theorem zbNwkNeighborGet_effect (held : AddressHolders) {create : Bool}
    {ret : Except RetError ℕ}
    (hrows : RowsInRange zg)
    (hget : zbNwkNeighborGet zg ref create = some (zg', ret)) :
    RowsInRange zg' ∧ ∃ row : Option ℕ, GainsLock zg.addr zg'.addr row ∧
      ∀ other, held.holders zg' other =
        held.holders zg other + if row = some other then 1 else 0 := by
  rcases zbNwkNeighborGet_eq_some hget with ⟨rfl, -⟩ |
    ⟨habsent, -, hroom, hfull, -, locked, hlock, rfl⟩
  · exact ⟨hrows, none, gainsLock_of_eq fun _ => rfl, fun _ => rfl⟩
  · have hsize := hrows.size
    have hused := hrows.used
    refine ⟨⟨hsize, ?_⟩, some ref, gainsLock_zbAddressLock hlock, ?_⟩
    · change zg.neighbor.baseNeighborUsed + 1 < neighborTableSize
      omega
    · intro other
      have hbound : zg.neighbor.baseNeighborUsed ≠ noNeighbor := by
        simp only [neighborTableSize, noNeighbor] at hused ⊢
        omega
      by_cases hother : other = ref
      · subst other
        simp [holders, InNeighborTable, habsent, NeighborTbl.setRow,
          NeighborTbl.setNeighbor, hbound]
        omega
      · rw [if_neg fun h => hother (some.inj h).symm, add_zero]
        apply holders_congr
        simp [InNeighborTable, NeighborTbl.setRow, NeighborTbl.setNeighbor,
          update_of_ne hother]

theorem Effect.after {target : Option ℕ} {first : Globals}
    (hfirst : GainsLock zg.addr first.addr none)
    (hneighbor : first.neighbor.addrToNeighbor = zg.neighbor.addrToNeighbor)
    (heffect : Effect held first zg' target) : Effect held zg zg' target := by
  obtain ⟨row, hcounts⟩ := heffect
  refine ⟨row, fun ref => ?_⟩
  obtain ⟨hlocks, hholders⟩ := hcounts ref
  rw [hlocks, hholders, hfirst ref]
  exact ⟨rfl, congrArg (· + _) (holders_congr (by rw [InNeighborTable, hneighbor]; rfl))⟩

theorem detectFormerChild_effect {ieeeAddr : IeeeAddr} {addr : ℕ} (hrows : RowsInRange zg)
    (hcall : detectFormerChild zg ieeeAddr addr = some zg') :
    RowsInRange zg' ∧ zg'.neighbor.addrToNeighbor = zg.neighbor.addrToNeighbor ∧
      GainsLock zg.addr zg'.addr none ∧
      updateRef zg'.addr ieeeAddr addr = updateRef zg.addr ieeeAddr addr := by
  obtain ⟨⟨addrs, ret⟩, hfound, hrest⟩ := bind_eq_some_iff.mp hcall
  obtain ⟨htarget, hgains⟩ := zbAddressByIeee_updateRef hfound addr
  -- Whatever is done to the row, the references and the locks stay.
  have hkeeps : ∀ next : Globals, next.addr = addrs →
      next.neighbor.addrToNeighbor = zg.neighbor.addrToNeighbor →
      next.neighbor.baseNeighborSize = zg.neighbor.baseNeighborSize →
      next.neighbor.baseNeighborUsed = zg.neighbor.baseNeighborUsed →
      RowsInRange next ∧ next.neighbor.addrToNeighbor = zg.neighbor.addrToNeighbor ∧
        GainsLock zg.addr next.addr none ∧
        updateRef next.addr ieeeAddr addr =
          updateRef zg.addr ieeeAddr addr := by
    intro next haddr hneighbor hsize hused
    rw [haddr]
    exact ⟨⟨hsize.trans hrows.size, hused ▸ hrows.used⟩, hneighbor, hgains, htarget⟩
  cases ret with
  | error err =>
    obtain rfl := some.inj hrest
    exact hkeeps _ rfl rfl rfl rfl
  | ok addrRef =>
    dsimp only at hrest
    split at hrest
    case isFalse =>
      obtain rfl := some.inj hrest
      exact hkeeps _ rfl rfl rfl rfl
    case isTrue =>
      obtain ⟨⟨looked, ret⟩, hget, hrest⟩ := bind_eq_some_iff.mp hrest
      rcases zbNwkNeighborGet_eq_some hget with ⟨rfl, -⟩ | ⟨-, hcreate, -⟩
      case inr => cases hcreate
      case inl =>
        cases ret with
        | error err =>
          obtain rfl := some.inj hrest
          exact hkeeps _ rfl rfl rfl rfl
        | ok n =>
          dsimp only at hrest
          split at hrest <;> obtain rfl := some.inj hrest <;>
            exact hkeeps _ rfl rfl rfl rfl

theorem deviceAnnce_effect {self : AnnceReceiver} {annce : DeviceAnnce}
    (hrows : RowsInRange zg)
    (hcall : zdoDeviceAnnceSrv self zg annce = some zg') :
    RowsInRange zg' ∧ Effect held zg zg'
      (updateRef zg.addr annce.ieeeAddr annce.nwkAddr) := by
  obtain ⟨⟨known, ne⟩, hupd, hrow⟩ := bind_eq_some_iff.mp hcall
  obtain ⟨first, hfirst, hupd⟩ := bind_eq_some_iff.mp hupd
  obtain ⟨⟨addrs, ret⟩, hupdate, hupd⟩ := bind_eq_some_iff.mp hupd
  obtain ⟨hrows, hneighbor, hgains, htarget⟩ := detectFormerChild_effect hrows hfirst
  obtain ⟨htarget', hgains'⟩ := gainsLock_zbAddressUpdate hupdate
  rw [← htarget, htarget']
  have hrows' : RowsInRange { first with addr := addrs } := ⟨hrows.size, hrows.used⟩
  -- The row of a neighbor is made, or nothing more is done.
  have hknown : RowsInRange known ∧ Effect held first known ret.toOption := by
    cases ret with
    | error err =>
      obtain rfl := congrArg Prod.fst (some.inj hupd)
      exact ⟨hrows', .of_gains hgains' rfl⟩
    | ok addrRef =>
      cases hdirect : annce.direct with
      | false =>
        rw [hdirect] at hupd
        obtain rfl := congrArg Prod.fst (some.inj hupd)
        exact ⟨hrows', .of_gains hgains' rfl⟩
      | true =>
        rw [hdirect] at hupd
        obtain ⟨⟨looked, ret'⟩, hget, hupd⟩ := bind_eq_some_iff.mp hupd
        obtain rfl := congrArg Prod.fst (some.inj hupd)
        obtain ⟨hlooked, row, hlock, hholders⟩ := zbNwkNeighborGet_effect held hrows' hget
        refine ⟨hlooked, row, fun ref => ⟨?_, hholders ref⟩⟩
        rw [hlock ref, hgains' ref]
  obtain ⟨hrows'', heffect⟩ := hknown
  cases ne with
  | none =>
    obtain rfl := some.inj hrow
    exact ⟨hrows'', .after hgains hneighbor heffect⟩
  | some n =>
    obtain rfl := some.inj hrow
    exact ⟨⟨hrows''.size, hrows''.used⟩, .after hgains hneighbor heffect⟩

theorem apply_effect {self : AnnceReceiver} {event : AnnceEvent}
    (hrows : RowsInRange zg) (hcall : event.apply self zg = some zg') :
    RowsInRange zg' ∧ Effect held zg zg' (event.target zg) := by
  cases event with
  | deviceAnnce annce => exact deviceAnnce_effect hrows hcall
  | peerShortAddr status ieeeAddr nwkAddr =>
    rw [apply, zbGetPeerShortAddrCb] at hcall
    rw [target]
    split at hcall
    case isTrue hsuccess =>
      rw [if_pos hsuccess]
      obtain ⟨⟨addrs, ret⟩, hupdate, rfl⟩ := map_eq_some_iff.mp hcall
      obtain ⟨htarget, hgains⟩ := gainsLock_zbAddressUpdate hupdate
      rw [htarget]
      exact ⟨⟨hrows.size, hrows.used⟩, .of_gains hgains rfl⟩
    case isFalse hfailed =>
      rw [if_neg hfailed]
      obtain rfl := some.inj hcall
      exact ⟨hrows, .of_gains (gainsLock_of_eq fun _ => rfl) rfl⟩
  | ownAnnceConfirm shortAddress =>
    obtain ⟨⟨addrs, ret⟩, hfound, rfl⟩ := map_eq_some_iff.mp hcall
    obtain ⟨htarget, hgains⟩ := gainsLock_zbAddressByShort hfound
    rw [target, htarget]
    exact ⟨⟨hrows.size, hrows.used⟩, .of_gains hgains rfl⟩

end Bounded

/-- From tables whose locks are bounded: they stay bounded in every state of a
run exactly if every event is for an entry with fewer locks than tables. -/
theorem locksBounded_iff {self : AnnceReceiver} {held : AddressHolders} {zg : Globals}
    {events : List AnnceEvent} (hbounded : held.LocksBounded zg)
    (hrows : RowsInRange zg) :
    EveryState (apply self) held.LocksBounded zg events ↔ AlongRun (apply self)
        (fun zg event => event.HasRoom self held zg) zg events := by
  refine everyState_iff_alongRun ?_ ?_ hbounded hrows
  · intro zg event hbounded hrows
    constructor
    · intro hnexts hsome ref htarget
      obtain ⟨next, hnext⟩ := isSome_iff_exists.mp hsome
      exact ((apply_effect hrows hnext).2.bounded_iff hbounded).mp
        (hnexts next hnext) ref htarget
    · intro hroom next hnext
      have hsome := isSome_iff_exists.mpr ⟨next, hnext⟩
      exact ((apply_effect hrows hnext).2.bounded_iff hbounded).mpr (hroom hsome)
  · intro zg event next _ hrows _ hnext
    have heffect : RowsInRange _ ∧ Effect held zg _ (event.target zg) :=
      apply_effect hrows hnext
    exact heffect.1

def AddressHolders.none : AddressHolders :=
  ⟨fun _ => false, fun _ => false, fun _ => false⟩

def annceRouter : AnnceReceiver := ⟨.router, 5⟩

instance (self : AnnceReceiver) (held : AddressHolders) (zg : Globals)
    (event : AnnceEvent) : Decidable (event.HasRoom self held zg) :=
  inferInstanceAs (Decidable (_ → ∀ ref ∈ event.target zg, _))

/-- A router in the neighbor table, which is also the parent and the destination
of a binding. -/
def knownRouter : Globals :=
  { Globals.init .zero with
    addr :=
      { AddrGlobals.zeroed with
        usedManufacturer := (· = 0)
        devManufacturer := fun _ => sampleIeee.deviceManufacturer
        addrMap := fun ref =>
          { AddrGlobals.zeroed.addrMap ref with
            ieeeAddr := ⟨0, sampleIeee.deviceId⟩
            addr := 5
            used := ref = 51
            lockCnt := if ref = 51 then 1 else 0 }
        shortSorted := fun _ => 51
        nElements := 1
        nSortedElements := 1 }
    neighbor :=
      { zbNwkNeighborInit with
        baseNeighbor := fun _ => { NeighborTblEnt.zero with addrRef := 51, used := true }
        addrToNeighbor := fun ref => if ref = 51 then 0 else noNeighbor
        baseNeighborUsed := 1 } }

def knownHolders : AddressHolders := ⟨fun _ => false, (· = 51), (· = 51)⟩

theorem locksBounded_knownRouter : knownHolders.LocksBounded knownRouter := by
  refine locksBounded_of_le fun ref => ?_
  by_cases href : ref = 51
  · subst href
    decide
  · simp [knownRouter, href]

/-- The router announces another short address, which is then looked up. -/
theorem locksBounded_iff_knownRouter :
    EveryState (apply annceRouter) knownHolders.LocksBounded knownRouter
      [.deviceAnnce ⟨7, sampleIeee, true, true, true⟩,
        .peerShortAddr 0 sampleIeee 8, .peerShortAddr 1 .zero 5] :=
  (locksBounded_iff locksBounded_knownRouter ⟨rfl, by decide⟩).mpr
    (by decide +kernel)

/-- A found address has a lock which no table accounts for, and to find it
sixteen times is an assertion. -/
theorem not_locksBounded_foundAddress :
    ¬EveryState (apply annceRouter) AddressHolders.none.LocksBounded
        (Globals.init .zero) [.peerShortAddr 0 sampleIeee 5] ∧
      run (apply annceRouter) (Globals.init .zero)
        (List.replicate 16 (.peerShortAddr 0 sampleIeee 5)) = none := by
  constructor
  · intro hevery
    have hresult : (run (apply annceRouter) (Globals.init .zero)
            [.peerShortAddr 0 sampleIeee 5]).map
            (fun zg => ((zg.addr.addrMap 51).lockCnt,
              zg.neighbor.addrToNeighbor 51)) = some (1, noNeighbor) := by
      decide +kernel
    obtain ⟨zg, hrun, hobserved⟩ := map_eq_some_iff.mp hresult
    obtain ⟨hlocks, hneighbor⟩ := Prod.mk.inj hobserved
    have hbounded := (hevery.last hrun).bounded 51
    have hnone : ¬InNeighborTable zg 51 := fun hin => hin hneighbor
    rw [hlocks, AddressHolders.holders, if_neg hnone] at hbounded
    exact absurd hbounded (by decide)
  · decide +kernel

end Zboss
