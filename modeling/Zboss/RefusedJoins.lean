import Zboss.AnnouncementLocks
import Zboss.AssociationRollback

/-!
# Refused joins

What `zb_nwk_accept_child` leaves behind when it refuses a device: the child is
counted before both tables are asked for room, and a row with other capabilities
is removed before the room for children is looked at.
-/

namespace Zboss

open Option

/-- The row in which `zb_nwk_neighbor_get_by_ieee` finds the device. -/
def deviceRow (zg : Globals) (deviceAddress : IeeeAddr) : Option ℕ :=
  (zbNwkNeighborGetByIeee zg deviceAddress).bind Prod.snd

def NeighborTblEnt.IsAcceptedChild (ent : NeighborTblEnt) : Prop :=
  ent.relationship = .child ∨ ent.relationship = .unauthenticatedChild

instance (ent : NeighborTblEnt) : Decidable ent.IsAcceptedChild :=
  inferInstanceAs (Decidable (_ ∨ _))

namespace RejoinRouter

structure Untouched (before after : RejoinRouter) : Prop where
  edChildNum : after.nib.edChildNum = before.nib.edChildNum
  routerChildNum : after.nib.routerChildNum = before.nib.routerChildNum
  neighbor : after.zg.neighbor = before.zg.neighbor
  locks : ∀ ref, (after.zg.addr.addrMap ref).lockCnt = (before.zg.addr.addrMap ref).lockCnt

structure CountsRight (before after : RejoinRouter) (deviceAddress : IeeeAddr)
    (address : Option ℕ) : Prop where
  refused : address = none → before.Untouched after
  accepted : address ≠ none → (∀ n, deviceRow before.zg deviceAddress = some n →
      ¬ (before.zg.neighbor.baseNeighbor n).IsAcceptedChild) →
        after.nib.childNum = before.nib.childNum + 1

variable (router : RejoinRouter) (deviceAddress : IeeeAddr) (capability : RejoinCapability)

def Differs (n : ℕ) : Prop :=
  deviceRow router.zg deviceAddress = some n ∧
    ¬ capability.SameAs (router.zg.neighbor.baseNeighbor n)

def RoomFor (address : ℕ) : Prop :=
  ∃ ref, updateRef router.zg.addr deviceAddress address = some ref ∧
    (router.zg.neighbor.baseNeighborUsed + 1 ≠ router.zg.neighbor.baseNeighborSize ∨
      router.zg.neighbor.addrToNeighbor ref ≠ noNeighbor ∧
        ∀ n, router.Differs deviceAddress capability n →
          (router.zg.neighbor.baseNeighbor n).addrRef ≠ ref)

/-- Neighbors with the same capabilities are children, a device which is counted
finds room in both tables, and one whose row is removed is counted. -/
structure Clean : Prop where
  known : ∀ n, deviceRow router.zg deviceAddress = some n →
    capability.SameAs (router.zg.neighbor.baseNeighbor n) →
      (router.zg.neighbor.baseNeighbor n).IsAcceptedChild
  counted : (∀ n, deviceRow router.zg deviceAddress = some n →
      router.Differs deviceAddress capability n) →
    ∀ address, (router.nib.admitChild capability.toMacCapability).2 = some address →
        router.RoomFor deviceAddress capability address
  removed : ∀ n, router.Differs deviceAddress capability n →
    router.zg.neighbor.addrToNeighbor
        (router.zg.neighbor.baseNeighbor n).addrRef ≠ noNeighbor →
      (router.nib.admitChild capability.toMacCapability).2 ≠ none

end RejoinRouter

theorem admitChild_none {nib : TreeNib} {cap : MacCapability}
    (hrefused : (nib.admitChild cap).2 = none) :
    (nib.admitChild cap).1 = nib := by
  unfold TreeNib.admitChild at hrefused ⊢
  split at hrefused
  · rename_i hroom
    rw [if_pos hroom]
    split at hrefused
    · rename_i hrouter
      rw [if_pos hrouter]
      split at hrefused
      · contradiction
      · rename_i hrouters
        rw [if_neg hrouters]
    · contradiction
  · rename_i hroom
    rw [if_neg hroom]

theorem counters_zbNwkAcceptChild_new
    (nib : TreeNib) (cap : MacCapability) (registered : Bool) :
    (zbNwkAcceptChild nib none cap registered).1.edChildNum =
        (nib.admitChild cap).1.edChildNum ∧
      (zbNwkAcceptChild nib none cap registered).1.routerChildNum =
        (nib.admitChild cap).1.routerChildNum := by
  unfold zbNwkAcceptChild
  dsimp only
  split
  · exact ⟨rfl, rfl⟩
  · exact ⟨rfl, rfl⟩

theorem childNum_zbNwkAcceptChild_known
    (nib : TreeNib) (address : ℕ) (cap : MacCapability) (registered : Bool) :
    (zbNwkAcceptChild nib (some address) cap registered).1.childNum = nib.childNum := by
  unfold zbNwkAcceptChild
  dsimp only
  split
  · rfl
  · rfl

section Tables

variable {zg zg' : Globals} {deviceAddress : IeeeAddr} {capability : RejoinCapability}

structure LooksUp (zg zg' : Globals) (deviceAddress : IeeeAddr) : Prop where
  neighbor : zg'.neighbor = zg.neighbor
  locks : GainsLock zg.addr zg'.addr none
  updateRef : ∀ address, Zboss.updateRef zg'.addr deviceAddress address =
    Zboss.updateRef zg.addr deviceAddress address

theorem looksUp_zbNwkNeighborGetByIeee {row : Option ℕ}
    (hget : zbNwkNeighborGetByIeee zg deviceAddress = some (zg', row)) :
    LooksUp zg zg' deviceAddress := by
  obtain ⟨⟨addr, ret⟩, hlookup, hrest⟩ := bind_eq_some_iff.mp hget
  have hsame := zbAddressByIeee_updateRef hlookup
  have hfound : LooksUp zg { zg with addr := addr } deviceAddress :=
    ⟨rfl, (hsame 0).2, fun address => (hsame address).1⟩
  cases ret with
  | error err =>
    obtain ⟨rfl, -⟩ := some_pair_inj hrest
    exact hfound
  | ok ref =>
    obtain ⟨⟨zg₁, found⟩, hneighbor, hlast⟩ := bind_eq_some_iff.mp hrest
    obtain ⟨rfl, -⟩ := some_pair_inj hlast
    obtain ⟨rfl, -⟩ := zbNwkNeighborGet_find hneighbor
    exact hfound

inductive KnownCase
    (zg : Globals) (deviceAddress : IeeeAddr) (capability : RejoinCapability) :
    Globals × Option ℕ → Prop
  | same (found : Globals) (n : ℕ) (hlooks : LooksUp zg found deviceAddress)
      (hrow : deviceRow zg deviceAddress = some n)
      (hsame : capability.SameAs (zg.neighbor.baseNeighbor n)) :
      KnownCase zg deviceAddress capability (found, some n)
  | removed (found : Globals) (n : ℕ) (hlooks : LooksUp zg found deviceAddress)
      (hrow : deviceRow zg deviceAddress = some n)
      (hdiffers : ¬ capability.SameAs (zg.neighbor.baseNeighbor n)) :
      KnownCase zg deviceAddress capability
        ((zbNwkNeighborDelete found (zg.neighbor.baseNeighbor n).addrRef).1,
          none)
  | unknown (found : Globals) (hlooks : LooksUp zg found deviceAddress)
      (hrow : deviceRow zg deviceAddress = none) :
      KnownCase zg deviceAddress capability (found, none)

theorem knownChild_cases {result : Globals × Option ℕ}
    (hknown : knownChild zg deviceAddress capability = some result) :
    KnownCase zg deviceAddress capability result := by
  obtain ⟨⟨found, row⟩, hget, hrest⟩ := bind_eq_some_iff.mp hknown
  have hlooks := looksUp_zbNwkNeighborGetByIeee hget
  have hrow : deviceRow zg deviceAddress = row := by
    rw [deviceRow, hget]
    rfl
  cases row with
  | none =>
    obtain rfl := some.inj hrest
    exact .unknown found hlooks hrow
  | some n =>
    dsimp only at hrest
    rw [hlooks.neighbor] at hrest
    split at hrest
    · rename_i hsame
      obtain rfl := some.inj hrest
      exact .same found n hlooks hrow hsame
    · rename_i hdiffers
      obtain rfl := some.inj hrest
      exact .removed found n hlooks hrow hdiffers

theorem zbNwkNeighborDelete_addrToNeighbor (zg : Globals) (ref other : ℕ) :
    (zbNwkNeighborDelete zg ref).1.neighbor.addrToNeighbor other =
      if other = ref then noNeighbor
      else zg.neighbor.addrToNeighbor other := by
  unfold zbNwkNeighborDelete
  dsimp only
  split
  · rw [← Function.update_apply]
    rfl
  · rename_i habsent
    split
    · rename_i heq
      rw [heq]
      exact not_not.mp habsent
    · rfl

theorem zbNwkNeighborDelete_rest (zg : Globals) (ref : ℕ) :
    (zbNwkNeighborDelete zg ref).1.addr = zg.addr ∧
      (zbNwkNeighborDelete zg ref).1.neighbor.baseNeighborUsed =
        zg.neighbor.baseNeighborUsed ∧
      (zbNwkNeighborDelete zg ref).1.neighbor.baseNeighborSize =
        zg.neighbor.baseNeighborSize := by
  unfold zbNwkNeighborDelete
  dsimp only
  split
  · exact ⟨rfl, rfl, rfl⟩
  · exact ⟨rfl, rfl, rfl⟩

theorem zbNwkNeighborDelete_neighbor_iff (zg : Globals) (ref : ℕ) :
    (zbNwkNeighborDelete zg ref).1.neighbor = zg.neighbor ↔
      zg.neighbor.addrToNeighbor ref = noNeighbor := by
  constructor
  · intro hsame
    have hgone := zbNwkNeighborDelete_addrToNeighbor zg ref ref
    rw [hsame, if_pos rfl] at hgone
    exact hgone
  · intro habsent
    rw [zbNwkNeighborDelete, if_neg (not_not.mpr habsent)]

def TablesRoom (zg : Globals) (deviceAddress : IeeeAddr) (address : ℕ) :
    Prop :=
  ∃ ref, updateRef zg.addr deviceAddress address = some ref ∧
    (zg.neighbor.baseNeighborUsed + 1 ≠ zg.neighbor.baseNeighborSize ∨
      zg.neighbor.addrToNeighbor ref ≠ noNeighbor)

theorem zbNwkNeighborGet_create {ref : ℕ} {ret : Except RetError ℕ}
    (hget : zbNwkNeighborGet zg ref true = some (zg', ret)) :
    (ret.toOption.isSome ↔
        zg.neighbor.baseNeighborUsed + 1 ≠ zg.neighbor.baseNeighborSize ∨
          zg.neighbor.addrToNeighbor ref ≠ noNeighbor) ∧
      (ret.toOption = none → zg' = zg) := by
  rcases zbNwkNeighborGet_eq_some hget with
    ⟨rfl, ⟨hpresent, rfl⟩ | ⟨habsent, err, rfl⟩⟩ |
    ⟨-, -, -, hroom, rfl, -⟩
  · exact ⟨iff_of_true rfl (.inr hpresent), fun _ => rfl⟩
  · have hfull : zg'.neighbor.baseNeighborUsed + 1 = zg'.neighbor.baseNeighborSize := by
      by_contra hroom
      rw [zbNwkNeighborGet, if_pos habsent, if_pos rfl, if_neg hroom] at hget
      obtain ⟨_, -, hrow⟩ := bind_eq_some_iff.mp hget
      dsimp only at hrow
      split at hrow
      · have herror := (some_pair_inj hrow).2
        contradiction
      · contradiction
    refine ⟨iff_of_false Bool.false_ne_true ?_, fun _ => rfl⟩
    rintro (hroom | hpresent)
    · exact hroom hfull
    · exact hpresent habsent
  · exact ⟨iff_of_true rfl (.inl hroom), fun hnone => by cases hnone⟩

theorem lockCnt_pred : ∀ cnt : Fin 16, cnt ≠ 0 → ((cnt - 1 : Fin 16) : ℕ) + 1 = cnt := by
  decide

theorem zbAddressUnlock_locks {g locked unlocked : AddrGlobals} {ref : ℕ}
    (hlocked : GainsLock g locked (some ref))
    (hunlock : zbAddressUnlock locked ref = some unlocked) :
    GainsLock g unlocked none := by
  intro other
  have hgain := hlocked other
  unfold zbAddressUnlock at hunlock
  dsimp only at hunlock
  split at hunlock
  · contradiction
  · rename_i hheld
    obtain rfl := some.inj hunlock
    by_cases hother : other = ref
    · subst hother
      have hpred := lockCnt_pred _ hheld
      simp only [AddrGlobals.setEntry, Function.update_self, if_true] at hgain ⊢
      simp only [reduceCtorEq, if_false]
      omega
    · simpa [AddrGlobals.setEntry, Function.update_of_ne hother,
        Ne.symm hother] using hgain

theorem registerChild_outcome {address : ℕ} {row : Option ℕ}
    (hregister : registerChild zg deviceAddress address = some (zg', row)) :
    (row.isSome ↔ TablesRoom zg deviceAddress address) ∧ (row = none →
        zg'.neighbor = zg.neighbor ∧ GainsLock zg.addr zg'.addr none) := by
  obtain ⟨⟨addr, ret⟩, hupdate, hrest⟩ := bind_eq_some_iff.mp hregister
  obtain ⟨href, hlocked⟩ := gainsLock_zbAddressUpdate hupdate
  unfold TablesRoom
  rw [href]
  cases ret with
  | error err =>
    obtain ⟨rfl, rfl⟩ := some_pair_inj hrest
    refine ⟨iff_of_false Bool.false_ne_true ?_, fun _ => ⟨rfl, hlocked⟩⟩
    rintro ⟨ref, hnone, -⟩
    cases hnone
  | ok ref =>
    obtain ⟨⟨zg₂, row₂⟩, hget, hlast⟩ := bind_eq_some_iff.mp hrest
    obtain ⟨hroom, hkept⟩ := zbNwkNeighborGet_create hget
    have hroom' : row₂.toOption.isSome ↔
        ∃ other, (Except.ok ref : Except RetError ℕ).toOption = some other ∧
          (zg.neighbor.baseNeighborUsed + 1 ≠ zg.neighbor.baseNeighborSize ∨
            zg.neighbor.addrToNeighbor other ≠ noNeighbor) := by
      rw [hroom]
      constructor
      · intro h
        exact ⟨ref, rfl, h⟩
      · rintro ⟨other, heq, h⟩
        obtain rfl := some.inj heq
        exact h
    cases row₂ with
    | ok n =>
      obtain ⟨rfl, rfl⟩ := some_pair_inj hlast
      exact ⟨hroom', fun hnone => by cases hnone⟩
    | error err =>
      obtain ⟨addr', hunlock, heq⟩ := bind_eq_some_iff.mp hlast
      obtain ⟨rfl, rfl⟩ := some_pair_inj heq
      obtain rfl := hkept rfl
      exact ⟨hroom', fun _ => ⟨rfl, zbAddressUnlock_locks hlocked hunlock⟩⟩

end Tables

/-! ## Accepting a child -/

namespace RejoinRouter

variable {router after : RejoinRouter} {deviceAddress : IeeeAddr}
  {capability : RejoinCapability} {lqi : UInt8} {zg : Globals}

structure NewDevice (router : RejoinRouter) (deviceAddress : IeeeAddr)
    (capability : RejoinCapability) (zg : Globals) : Prop where
  differs : ∀ n, deviceRow router.zg deviceAddress = some n →
    router.Differs deviceAddress capability n
  locks : GainsLock router.zg.addr zg.addr none
  room : ∀ address, TablesRoom zg deviceAddress address ↔
    router.RoomFor deviceAddress capability address
  neighbor : zg.neighbor = router.zg.neighbor ↔
    ∀ n, router.Differs deviceAddress capability n → router.zg.neighbor.addrToNeighbor
        (router.zg.neighbor.baseNeighbor n).addrRef = noNeighbor

theorem newDevice_of_knownChild
    (hknown : knownChild router.zg deviceAddress capability = some (zg, none)) :
    NewDevice router deviceAddress capability zg := by
  cases knownChild_cases hknown with
  | removed found n hlooks hrow hdiffers =>
    obtain ⟨haddr, hused, hsize⟩ := zbNwkNeighborDelete_rest found
      (router.zg.neighbor.baseNeighbor n).addrRef
    have honly : ∀ m, router.Differs deviceAddress capability m → m = n :=
      fun m hm => some.inj (hm.1.symm.trans hrow)
    refine ⟨?_, ?_, ?_, ?_⟩
    · intro m hm
      obtain rfl := some.inj (hrow.symm.trans hm)
      exact ⟨hrow, hdiffers⟩
    · rw [haddr]
      exact hlooks.locks
    · intro address
      unfold TablesRoom RoomFor
      rw [haddr, hused, hsize, hlooks.neighbor, hlooks.updateRef]
      refine exists_congr fun ref => and_congr_right fun _ => or_congr_right ?_
      rw [zbNwkNeighborDelete_addrToNeighbor, hlooks.neighbor]
      constructor
      · intro hpresent
        split at hpresent
        · exact absurd rfl hpresent
        · rename_i hother
          refine ⟨hpresent, ?_⟩
          intro m hm
          rw [honly m hm]
          exact Ne.symm hother
      · rintro ⟨hpresent, hother⟩
        rw [if_neg (Ne.symm (hother n ⟨hrow, hdiffers⟩))]
        exact hpresent
    · have hiff := zbNwkNeighborDelete_neighbor_iff found
        (router.zg.neighbor.baseNeighbor n).addrRef
      rw [hlooks.neighbor] at hiff
      rw [hiff]
      constructor
      · intro habsent m hm
        rw [honly m hm]
        exact habsent
      · intro hall
        exact hall n ⟨hrow, hdiffers⟩
  | unknown _ hlooks hrow =>
    have hnobody : ∀ m, ¬ router.Differs deviceAddress capability m := by
      intro m hm
      have hfound := hm.1
      rw [hrow] at hfound
      contradiction
    refine ⟨?_, hlooks.locks, ?_, ?_⟩
    · intro m hm
      rw [hrow] at hm
      contradiction
    · intro address
      unfold TablesRoom RoomFor
      rw [hlooks.neighbor, hlooks.updateRef]
      refine exists_congr fun ref => and_congr_right fun _ => or_congr_right ?_
      exact ⟨fun h => ⟨h, fun m hm => absurd hm (hnobody m)⟩, And.left⟩
    · exact iff_of_true hlooks.neighbor fun m hm => absurd hm (hnobody m)

section Outcomes

variable {after : RejoinRouter} {address : Option ℕ}

theorem countsRight_iff_of_known {n : ℕ}
    (hknown : knownChild router.zg deviceAddress capability = some (zg, some n))
    (haddress : address ≠ none)
    (hkept : after.nib.childNum = router.nib.childNum) :
    router.CountsRight after deviceAddress address ↔
      router.Clean deviceAddress capability := by
  cases knownChild_cases hknown with
  | same _ _ hlooks hrow hsame =>
    constructor
    · intro hright
      refine ⟨?_, ?_, ?_⟩
      · intro m hm _
        obtain rfl := some.inj (hrow.symm.trans hm)
        by_contra hother
        have hcounted := hright.accepted haddress (by
          intro m hm
          obtain rfl := some.inj (hrow.symm.trans hm)
          exact hother)
        exact absurd (hkept.symm.trans hcounted) (Nat.succ_ne_self _).symm
      · intro hdiffers
        exact absurd hsame (hdiffers n hrow).2
      · intro m hm
        obtain rfl := some.inj (hrow.symm.trans hm.1)
        exact absurd hsame hm.2
    · intro hclean
      refine ⟨fun hnone => absurd hnone haddress, ?_⟩
      intro _ hnone
      exact absurd (hclean.known n hrow hsame) (hnone n hrow)

theorem countsRight_iff_of_counted
    (hcounted : after.nib.childNum = router.nib.childNum + 1) :
    router.CountsRight after deviceAddress address ↔ address ≠ none := by
  constructor
  · intro hright hnone
    obtain ⟨hed, hrouter, -, -⟩ := hright.refused hnone
    have hsame : after.nib.childNum = router.nib.childNum := congrArg₂ (· + ·) hed hrouter
    exact absurd (hsame.symm.trans hcounted) (Nat.succ_ne_self _).symm
  · intro haddress
    exact ⟨fun hnone => absurd hnone haddress, fun _ _ => hcounted⟩

section

variable (hnew : NewDevice router deviceAddress capability zg)

include hnew

theorem NewDevice.known : ∀ n, deviceRow router.zg deviceAddress = some n →
      capability.SameAs (router.zg.neighbor.baseNeighbor n) →
        (router.zg.neighbor.baseNeighbor n).IsAcceptedChild :=
  fun n hn hsame => absurd hsame (hnew.differs n hn).2

theorem NewDevice.clean_iff_of_admitted {s : ℕ} (hadmitted :
      (router.nib.admitChild capability.toMacCapability).2 = some s) :
    router.Clean deviceAddress capability ↔ router.RoomFor deviceAddress capability s := by
  constructor
  · intro hclean
    exact hclean.counted hnew.differs s hadmitted
  · intro hroom
    refine ⟨hnew.known, ?_, ?_⟩
    · intro _ other hother
      rw [hadmitted] at hother
      obtain rfl := some.inj hother
      exact hroom
    · intro _ _ _
      rw [hadmitted]
      simp

theorem NewDevice.countsRight_iff_of_refused
    (hadmitted : (router.nib.admitChild capability.toMacCapability).2 = none)
    (hed : after.nib.edChildNum = router.nib.edChildNum)
    (hrouter : after.nib.routerChildNum = router.nib.routerChildNum)
    (hzg : after.zg = zg) :
    router.CountsRight after deviceAddress none ↔
      router.Clean deviceAddress capability := by
  subst hzg
  constructor
  · intro hright
    have hsame := hnew.neighbor.mp (hright.refused rfl).neighbor
    refine ⟨hnew.known, ?_, ?_⟩
    · intro _ s hs
      rw [hadmitted] at hs
      contradiction
    · intro n hn hpresent
      exact absurd (hsame n hn) hpresent
  · intro hclean
    have hneighbor : after.zg.neighbor = router.zg.neighbor := by
      apply hnew.neighbor.mpr
      intro n hn
      by_contra hpresent
      exact hclean.removed n hn hpresent hadmitted
    refine ⟨fun _ => ⟨hed, hrouter, hneighbor, ?_⟩, by simp⟩
    intro ref
    exact Fin.ext (hnew.locks ref)

end

end Outcomes

/-- A refused device leaves no trace, and an accepted one is counted once,
exactly if the call is clean. -/
theorem countsRight_iff_clean (router after : RejoinRouter) (deviceAddress : IeeeAddr)
    (capability : RejoinCapability) (lqi : UInt8) (address : Option ℕ)
    (hcall : router.acceptChild deviceAddress capability lqi = some (after, address)) :
    router.CountsRight after deviceAddress address ↔
      router.Clean deviceAddress capability := by
  obtain ⟨⟨zg, known⟩, hknown, hrest⟩ := bind_eq_some_iff.mp hcall
  cases known with
  | some n =>
      obtain ⟨rfl, rfl⟩ := some_pair_inj hrest
      exact countsRight_iff_of_known hknown (some_ne_none _)
        (childNum_zbNwkAcceptChild_known ..)
  | none =>
      have hnew := newDevice_of_knownChild hknown
      cases hadmitted : (router.nib.admitChild capability.toMacCapability).2 with
      | some s =>
          have hcount : ∀ registered,
              (zbNwkAcceptChild router.nib none capability.toMacCapability
                registered).1.childNum = router.nib.childNum + 1 :=
            fun registered =>
              (childNum_zbNwkAcceptChild_new ..).trans (childNum_admitChild hadmitted)
          dsimp only at hrest
          rw [hadmitted] at hrest
          obtain ⟨⟨zg₂, row⟩, hregister, hlast⟩ := bind_eq_some_iff.mp hrest
          obtain ⟨hroom, -⟩ := registerChild_outcome hregister
          rw [hnew.room s] at hroom
          rw [hnew.clean_iff_of_admitted hadmitted, ← hroom]
          cases row with
          | some n =>
              obtain ⟨rfl, rfl⟩ := some_pair_inj hlast
              rw [countsRight_iff_of_counted (hcount true)]
              simp
          | none =>
              obtain ⟨rfl, rfl⟩ := some_pair_inj hlast
              rw [countsRight_iff_of_counted (hcount false)]
              simp
      | none =>
          dsimp only at hrest
          rw [hadmitted] at hrest
          obtain ⟨rfl, rfl⟩ := some_pair_inj hrest
          obtain ⟨hed, hrouter⟩ := counters_zbNwkAcceptChild_new router.nib
            capability.toMacCapability false
          rw [admitChild_none hadmitted] at hed hrouter
          exact hnew.countsRight_iff_of_refused hadmitted hed hrouter rfl

def crowdedCoordinator : RejoinRouter :=
  let coordinator := RejoinRun.rejoinCoordinator
  { coordinator with
    zg :=
      { coordinator.zg with
        neighbor :=
          { zbNwkNeighborInit with
            baseNeighbor := fun n =>
              { NeighborTblEnt.zero with
                addrRef := n + 1
                deviceType := .router
                used := n + 1 < neighborTableSize
                relationship := .sibling }
            addrToNeighbor := fun ref =>
              if ref ≠ 0 ∧ ref < neighborTableSize then ref - 1
              else noNeighbor
            baseNeighborUsed := neighborTableSize - 1 } } }

/-- The first device is accepted and counted. -/
theorem clean_firstDevice : ∃ after s,
      RejoinRun.rejoinCoordinator.acceptChild associatingDevice
          associatingCapability 200 = some (after, some s) ∧
        (RejoinRun.rejoinCoordinator.CountsRight after associatingDevice (some s) ↔
          RejoinRun.rejoinCoordinator.Clean associatingDevice associatingCapability) := by
  have hsome := failedAssociation_observed.2.1
  obtain ⟨⟨after, address⟩, hcall, haddress⟩ := map_eq_some_iff.mp hsome
  obtain ⟨s, rfl⟩ := isSome_iff_exists.mp haddress
  exact ⟨after, s, hcall,
    countsRight_iff_clean _ after associatingDevice associatingCapability 200
      (some s) hcall⟩

/-- A refused device is counted as a child. -/
theorem not_countsRight_crowded : ¬ ∀ router after deviceAddress capability lqi address,
      RejoinRouter.acceptChild router deviceAddress capability lqi =
          some (after, address) →
        router.CountsRight after deviceAddress address := by
  intro hright
  have hrefused : (crowdedCoordinator.acceptChild associatingDevice
      associatingCapability 200).map (fun result =>
        (result.2, result.1.nib.edChildNum)) = some (none, 1) := by
    decide +kernel
  obtain ⟨⟨after, address⟩, hcall, heq⟩ := map_eq_some_iff.mp hrefused
  obtain ⟨rfl, hcounted⟩ := Prod.mk.inj heq
  have hsame := ((hright _ after _ _ _ none hcall).refused rfl).edChildNum
  rw [hcounted] at hsame
  contradiction

end RejoinRouter

end Zboss
