import Zboss.AddressTableFrames
import Zboss.NeighborTable
import Zboss.TransitionSystem

/-!
# Locks taken by the neighbor table

`zb_nwk_neighbor_get` locks the address entry of the row it creates.  Nothing
unlocks it: `zb_nwk_neighbor_delete` drops the row and keeps the lock.
-/

namespace Zboss

open Option TransitionSystem

inductive NeighborCall where
  | get (ref : ℕ) (create : Bool)
  | delete (ref : ℕ)

def NeighborCall.apply (zg : Globals) : NeighborCall → Option Globals
  | .get ref create => (zbNwkNeighborGet zg ref create).map Prod.fst
  | .delete ref => some (zbNwkNeighborDelete zg ref).1

def InNeighborTable (zg : Globals) (ref : ℕ) : Prop :=
  zg.neighbor.addrToNeighbor ref ≠ noNeighbor

instance (zg : Globals) (ref : ℕ) : Decidable (InNeighborTable zg ref) :=
  inferInstanceAs (Decidable (_ ≠ _))

def LocksBalanced (zg : Globals) : Prop :=
  ∀ ref, (zg.addr.addrMap ref).lockCnt = if InNeighborTable zg ref then 1 else 0

def NeighborCall.KeepsRows (zg : Globals) : NeighborCall → Prop
  | .get _ _ => True
  | .delete ref => ¬ InNeighborTable zg ref

structure RowsInRange (zg : Globals) : Prop where
  size : zg.neighbor.baseNeighborSize = neighborTableSize
  used : zg.neighbor.baseNeighborUsed < neighborTableSize

theorem locksBalanced_get
    {zg zg' : Globals} {ref : ℕ} {create : Bool} {ret : Except RetError ℕ}
    (hbalanced : LocksBalanced zg) (hrows : RowsInRange zg)
    (hget : zbNwkNeighborGet zg ref create = some (zg', ret)) :
    LocksBalanced zg' ∧ RowsInRange zg' := by
  rcases zbNwkNeighborGet_eq_some hget with ⟨rfl, _⟩ |
    ⟨habsent, _, hroom, hfull, _, locked, hlock, rfl⟩
  · exact ⟨hbalanced, hrows⟩
  · obtain ⟨_, rfl⟩ := zbAddressLock_eq_some hlock
    have hsize := hrows.size
    have hbound : zg.neighbor.baseNeighborUsed ≠ noNeighbor := by
      have hused := hrows.used
      simp only [neighborTableSize, noNeighbor] at hused ⊢
      omega
    constructor
    · intro other
      by_cases hother : other = ref
      · subst hother
        have hzero : (zg.addr.addrMap other).lockCnt = 0 := by
          rw [hbalanced other, if_neg (fun hin => hin habsent)]
        simp [AddrGlobals.setEntry, InNeighborTable, NeighborTbl.setRow,
          NeighborTbl.setNeighbor, hzero, hbound]
      · simp only [AddrGlobals.setEntry, Function.update_of_ne hother]
        rw [hbalanced other]
        apply if_congr _ rfl rfl
        simp [InNeighborTable, NeighborTbl.setRow, NeighborTbl.setNeighbor,
          Function.update_of_ne hother]
    · refine ⟨hsize, ?_⟩
      have hnext : zg.neighbor.baseNeighborUsed + 1 < neighborTableSize := by omega
      exact hnext

theorem zbNwkNeighborGet_returns
    {zg : Globals} (hbalanced : LocksBalanced zg) (hrows : RowsInRange zg)
    (ref : ℕ) (create : Bool) :
    ∃ zg' ret, zbNwkNeighborGet zg ref create = some (zg', ret) := by
  unfold zbNwkNeighborGet
  dsimp only
  split
  · rename_i habsent
    split
    · split
      · exact ⟨_, _, rfl⟩
      · have hzero : (zg.addr.addrMap ref).lockCnt = 0 := by
          rw [hbalanced ref, if_neg (fun hin => hin habsent)]
        have hlock : ∃ locked, zbAddressLock zg.addr ref = some locked := by
          simp [zbAddressLock, hzero]
        obtain ⟨locked, hlock⟩ := hlock
        have hroom : zg.neighbor.baseNeighborUsed < zg.neighbor.baseNeighborSize := by
          rw [hrows.size]
          exact hrows.used
        simp only [hlock, bind_eq_bind, bind_some, if_pos hroom]
        exact ⟨_, _, rfl⟩
    · exact ⟨_, _, rfl⟩
  · exact ⟨_, _, rfl⟩

theorem zbNwkNeighborDelete_of_absent
    {zg : Globals} {ref : ℕ} (habsent : ¬ InNeighborTable zg ref) :
    zbNwkNeighborDelete zg ref = (zg, .error .notFound) := by
  unfold zbNwkNeighborDelete
  rw [InNeighborTable, not_not] at habsent
  simp [habsent]

theorem not_locksBalanced_delete {zg : Globals} {ref : ℕ}
    (hbalanced : LocksBalanced zg) (hpresent : InNeighborTable zg ref) :
    ¬ LocksBalanced (zbNwkNeighborDelete zg ref).1 := by
  intro hafter
  have hlock := hafter ref
  have hbefore := hbalanced ref
  rw [if_pos hpresent] at hbefore
  rw [InNeighborTable] at hpresent
  simp [zbNwkNeighborDelete, hpresent, InNeighborTable, NeighborTbl.setRow,
    NeighborTbl.setNeighbor, hbefore] at hlock

def LocksSound (zg : Globals) : Prop :=
  LocksBalanced zg ∧ ∀ call, (NeighborCall.apply zg call).isSome = true

theorem locksSound_of_balanced
    {zg : Globals} (hbalanced : LocksBalanced zg) (hrows : RowsInRange zg) :
    LocksSound zg := by
  refine ⟨hbalanced, ?_⟩
  intro call
  cases call with
  | get ref create =>
    obtain ⟨zg', ret, hget⟩ := zbNwkNeighborGet_returns hbalanced hrows ref create
    simp [NeighborCall.apply, hget]
  | delete ref => rfl

/-- The locks are balanced and no assertion is in reach in every state of a
run, exactly if no call of the run deletes a reference which is in the
table. -/
theorem locksBalanced_iff {zg : Globals} {calls : List NeighborCall}
    (hempty : zg.neighbor = zbNwkNeighborInit)
    (hunlocked : ∀ ref, (zg.addr.addrMap ref).lockCnt = 0) :
    EveryState NeighborCall.apply LocksSound zg calls ↔
      AlongRun NeighborCall.apply (fun zg call => call.KeepsRows zg) zg
        calls := by
  have hexact : ∀ zg call, LocksSound zg → RowsInRange zg →
      ((∀ next, NeighborCall.apply zg call = some next → LocksSound next) ↔
        call.KeepsRows zg) := by
    intro zg call hsound hrows
    cases call with
    | get ref create =>
        simp only [NeighborCall.KeepsRows, iff_true]
        intro next happly
        simp only [NeighborCall.apply, map_eq_some_iff] at happly
        obtain ⟨⟨_, ret⟩, hget, rfl⟩ := happly
        obtain ⟨hbalanced, hrows'⟩ := locksBalanced_get hsound.1 hrows hget
        exact locksSound_of_balanced hbalanced hrows'
    | delete ref =>
        simp only [NeighborCall.apply, some.injEq, forall_eq', NeighborCall.KeepsRows]
        constructor
        · intro hafter hpresent
          exact not_locksBalanced_delete hsound.1 hpresent hafter.1
        · intro habsent
          rwa [zbNwkNeighborDelete_of_absent habsent]
  have hsupport : ∀ zg call next, LocksSound zg → RowsInRange zg →
      NeighborCall.KeepsRows zg call →
      NeighborCall.apply zg call = some next → RowsInRange next := by
    intro zg call next hsound hrows hkeeps happly
    cases call with
    | get ref create =>
        simp only [NeighborCall.apply, map_eq_some_iff] at happly
        obtain ⟨⟨_, ret⟩, hget, rfl⟩ := happly
        exact (locksBalanced_get hsound.1 hrows hget).2
    | delete ref =>
        obtain rfl := some.inj happly
        rwa [zbNwkNeighborDelete_of_absent hkeeps]
  have hrows : RowsInRange zg := by
    constructor
    · rw [hempty]
      rfl
    · rw [hempty]
      decide
  have hbalanced : LocksBalanced zg := by
    intro ref
    simp [hunlocked, InNeighborTable, hempty, zbNwkNeighborInit]
  exact everyState_iff_alongRun hexact hsupport
    (locksSound_of_balanced hbalanced hrows) hrows

theorem locksBalanced_iff_gets :
    EveryState NeighborCall.apply LocksSound (Globals.init .zero)
        [.get 5 true, .get 5 false, .delete 7] ↔
      AlongRun NeighborCall.apply (fun zg call => call.KeepsRows zg)
        (Globals.init .zero) [.get 5 true, .get 5 false, .delete 7] :=
  locksBalanced_iff rfl (fun _ => rfl)

theorem not_locksBalanced_of_delete :
    ¬ EveryState NeighborCall.apply LocksBalanced (Globals.init .zero)
      [.get 5 true, .delete 5] := by
  intro hevery
  have hresult : (run NeighborCall.apply (Globals.init .zero) [.get 5 true, .delete 5]).map
          (fun zg => ((zg.addr.addrMap 5).lockCnt, zg.neighbor.addrToNeighbor 5)) =
        some (1, noNeighbor) := by
    decide +kernel
  obtain ⟨zg, hrun, hobserved⟩ := map_eq_some_iff.mp hresult
  simp only [Prod.mk.injEq] at hobserved
  have hlock := hevery.last hrun 5
  simp [hobserved.1, InNeighborTable, hobserved.2] at hlock

end Zboss
