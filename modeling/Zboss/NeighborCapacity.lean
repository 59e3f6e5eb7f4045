import Zboss.NeighborRows
import Zboss.SlotTable

/-!
# The capacity of the base neighbor table

`base_neighbor_used` is the number of used rows and at the same time the place
of the next row.  Deletion takes a row out of use and leaves the number as it
is: the row is not used again, and a table may be full without a used row.
-/

namespace Zboss

open Function Option TransitionSystem

inductive CapacityCall where
  | get (ref : ℕ) (createIfAbsent : Bool)
  | delete (ref : ℕ)

/-- `deleted` counts the rows which `zb_nwk_neighbor_delete` has taken out of
use. -/
structure NeighborRun where
  zg : Globals
  deleted : ℕ

namespace NeighborRun

def start (zg : Globals) : NeighborRun where
  zg := { zg with neighbor := zbNwkNeighborInit }
  deleted := 0

def step (run : NeighborRun) : CapacityCall → Option NeighborRun
  | .get ref createIfAbsent =>
      (zbNwkNeighborGet run.zg ref createIfAbsent).map
        fun result => { run with zg := result.1 }
  | .delete ref =>
      match zbNwkNeighborDelete run.zg ref with
      | (zg, .ok ()) => some ⟨zg, run.deleted + 1⟩
      | (zg, .error _) => some { run with zg }

end NeighborRun

def rowsInUse (nt : NeighborTbl) : Finset ℕ :=
  SlotTable.inUse nt.baseNeighborSize fun n => (nt.baseNeighbor n).used

/-- `zb_nwk_neighbor_get` runs out of memory only when all rows but one are in
use. -/
def CapacityCall.FailsFull (run : NeighborRun) : CapacityCall → Prop
  | .get ref createIfAbsent =>
      ∀ zg, zbNwkNeighborGet run.zg ref createIfAbsent = some (zg, .error .noMemory) →
        run.zg.neighbor.baseNeighborSize - 1 ≤ (rowsInUse run.zg.neighbor).card
  | .delete _ => True

/-- A row which is wanted behind the last one is wanted before any row was
deleted. -/
def CapacityCall.FullUndeleted (run : NeighborRun) : CapacityCall → Prop
  | .get ref createIfAbsent =>
      createIfAbsent = true → run.zg.neighbor.addrToNeighbor ref = noNeighbor →
        run.zg.neighbor.baseNeighborUsed + 1 = run.zg.neighbor.baseNeighborSize →
        run.deleted = 0
  | .delete _ => True

instance (run : NeighborRun) (call : CapacityCall) :
    Decidable (call.FullUndeleted run) :=
  match call with
  | .get _ _ => inferInstanceAs (Decidable (_ → _ → _ → _))
  | .delete _ => inferInstanceAs (Decidable True)

structure CountsRows (run : NeighborRun) : Prop where
  rows : RowsSound run.zg.neighbor
  size : run.zg.neighbor.baseNeighborSize = neighborTableSize
  below : run.zg.neighbor.baseNeighborUsed < neighborTableSize
  behind : ∀ n, run.zg.neighbor.baseNeighborUsed ≤ n →
    (run.zg.neighbor.baseNeighbor n).used = false
  counted : (rowsInUse run.zg.neighbor).card + run.deleted =
    run.zg.neighbor.baseNeighborUsed

theorem countsRows_start (zg : Globals) : CountsRows (.start zg) := by
  refine ⟨rowsSound_init, rfl, Nat.succ_pos 31, fun _ _ => rfl, ?_⟩
  have hnone : (rowsInUse zbNwkNeighborInit).card = 0 :=
    SlotTable.card_inUse_eq_zero.mpr fun _ _ => rfl
  exact hnone

theorem used_setRow (nt : NeighborTbl) (n : ℕ) (ent : NeighborTblEnt) :
    (fun m => ((nt.setRow n ent).baseNeighbor m).used) =
      update (fun m => (nt.baseNeighbor m).used) n ent.used := by
  funext m
  by_cases hmn : m = n
  · simp [NeighborTbl.setRow, hmn]
  · simp [NeighborTbl.setRow, update_of_ne hmn]

section Steps

variable {run run' : NeighborRun}

theorem CountsRows.get {ref : ℕ} {createIfAbsent : Bool} (hcounts : CountsRows run)
    (hstep : run.step (.get ref createIfAbsent) = some run') :
    CountsRows run' := by
  obtain ⟨⟨zg, ret⟩, hget, rfl⟩ := map_eq_some_iff.mp hstep
  have hrows := zbNwkNeighborGet_rows hcounts.rows hget
  rcases zbNwkNeighborGet_eq_some hget with ⟨rfl, _⟩ |
    ⟨_, _, hroom, hlast, _, locked, _, rfl⟩
  · exact hcounts
  · have hsize := hcounts.size
    refine ⟨hrows, hsize, ?_, ?_, ?_⟩
    · dsimp only
      omega
    · intro n hn
      dsimp only [NeighborTbl.setRow, NeighborTbl.setNeighbor] at hn ⊢
      rw [update_of_ne (by omega)]
      exact hcounts.behind n (by omega)
    · have hcard := @SlotTable.card_inUse_take _ _
        (fun n => (run.zg.neighbor.baseNeighbor n).used) hroom
        (hcounts.behind _ (Nat.le_refl _))
      have hbefore := hcounts.counted
      have hused := used_setRow
        (run.zg.neighbor.setNeighbor ref run.zg.neighbor.baseNeighborUsed)
        run.zg.neighbor.baseNeighborUsed
        (newNeighborEnt ref run.zg.nib.depth)
      rw [rowsInUse] at hbefore ⊢
      dsimp only at hused ⊢
      rw [hused]
      change (SlotTable.inUse run.zg.neighbor.baseNeighborSize
        (update (fun n => (run.zg.neighbor.baseNeighbor n).used)
          run.zg.neighbor.baseNeighborUsed true)).card + run.deleted = _
      omega

theorem CountsRows.delete {ref : ℕ} (hcounts : CountsRows run)
    (hstep : run.step (.delete ref) = some run') : CountsRows run' := by
  have hrows := (zbNwkNeighborDelete_rows hcounts.rows ref).2.1
  unfold NeighborRun.step zbNwkNeighborDelete at hstep
  unfold zbNwkNeighborDelete at hrows
  dsimp only at hstep hrows
  by_cases hpresent : run.zg.neighbor.addrToNeighbor ref = noNeighbor
  · rw [if_neg (not_not.mpr hpresent)] at hstep
    obtain rfl := some.inj hstep
    exact hcounts
  · rw [if_pos hpresent] at hstep hrows
    obtain rfl := some.inj hstep
    obtain ⟨hlt, hused, _⟩ := hcounts.rows.linked ref hpresent
    have hsize := hcounts.size
    have hbelow := hcounts.below
    refine ⟨hrows, hsize, hbelow, ?_, ?_⟩
    · intro n hn
      dsimp only [NeighborTbl.setRow, NeighborTbl.setNeighbor] at hn ⊢
      rw [update_of_ne (by omega)]
      exact hcounts.behind n hn
    · have hcard := @SlotTable.card_inUse_release run.zg.neighbor.baseNeighborSize
        (run.zg.neighbor.addrToNeighbor ref)
        (fun n => (run.zg.neighbor.baseNeighbor n).used) (by omega) hused
      have hbefore := hcounts.counted
      have hupdate := used_setRow (run.zg.neighbor.setNeighbor ref noNeighbor)
        (run.zg.neighbor.addrToNeighbor ref)
        { run.zg.neighbor.baseNeighbor
            (run.zg.neighbor.addrToNeighbor ref) with used := false }
      rw [rowsInUse] at hbefore ⊢
      dsimp only at hupdate ⊢
      rw [hupdate]
      change (SlotTable.inUse run.zg.neighbor.baseNeighborSize
        (update (fun n => (run.zg.neighbor.baseNeighbor n).used)
          (run.zg.neighbor.addrToNeighbor ref) false)).card +
            (run.deleted + 1) = run.zg.neighbor.baseNeighborUsed
      omega

theorem CountsRows.step {call : CapacityCall} (hcounts : CountsRows run)
    (hstep : run.step call = some run') : CountsRows run' := by
  cases call with
  | get ref createIfAbsent => exact hcounts.get hstep
  | delete ref => exact hcounts.delete hstep

theorem noMemory_iff {zg : Globals} {ref : ℕ} {createIfAbsent : Bool} :
    (∃ zg', zbNwkNeighborGet zg ref createIfAbsent = some (zg', .error .noMemory)) ↔
      createIfAbsent = true ∧ zg.neighbor.addrToNeighbor ref = noNeighbor ∧
        zg.neighbor.baseNeighborUsed + 1 = zg.neighbor.baseNeighborSize := by
  constructor
  · rintro ⟨zg', hget⟩
    unfold zbNwkNeighborGet at hget
    dsimp only at hget
    split at hget
    · rename_i habsent
      split at hget
      · rename_i hcreate
        split at hget
        · rename_i hfull
          exact ⟨hcreate, habsent, hfull⟩
        · obtain ⟨locked, _, hrest⟩ := bind_eq_some_iff.mp hget
          split at hrest
          · simp at hrest
          · contradiction
      · simp at hget
    · simp at hget
  · rintro ⟨hcreate, habsent, hfull⟩
    refine ⟨zg, ?_⟩
    simp [zbNwkNeighborGet, hcreate, habsent, hfull]

theorem CountsRows.failsFull_iff {call : CapacityCall} (hcounts : CountsRows run) :
    call.FailsFull run ↔ call.FullUndeleted run := by
  cases call with
  | delete ref => exact Iff.rfl
  | get ref createIfAbsent =>
    have hcounted := hcounts.counted
    constructor
    · intro hfails hcreate habsent hfull
      obtain ⟨zg', hget⟩ := noMemory_iff.mpr ⟨hcreate, habsent, hfull⟩
      have hcard := hfails zg' hget
      omega
    · intro hundeleted zg' hget
      obtain ⟨hcreate, habsent, hfull⟩ := noMemory_iff.mp ⟨zg', hget⟩
      have hzero := hundeleted hcreate habsent hfull
      omega

end Steps

/-- In a run of creations and deletions the table is exhausted only when all
rows but one are in use, exactly if it is not exhausted after a deletion. -/
theorem failsFull_iff_fullUndeleted (zg : Globals) (calls : List CapacityCall) :
    AlongRun NeighborRun.step (fun run call => call.FailsFull run) (.start zg) calls ↔
      AlongRun NeighborRun.step (fun run call => call.FullUndeleted run)
        (.start zg) calls :=
  @alongRun_congr _ _ _ _ _ CountsRows (fun _ _ hcounts => hcounts.failsFull_iff)
    (fun _ _ _ hcounts _ hstep => hcounts.step hstep) _ _
    (countsRows_start zg)

/-- A device joins and leaves, and another one joins. -/
theorem failsFull_of_oneLeave :
    AlongRun NeighborRun.step (fun run call => call.FailsFull run)
      (.start (.init .zero)) [.get 0 true, .delete 0, .get 1 true] :=
  (failsFull_iff_fullUndeleted (.init .zero)
    [.get 0 true, .delete 0, .get 1 true]).mpr (by decide +kernel)

def joinLeaveRun : List CapacityCall :=
  (List.range 31).flatMap fun ref => [.get ref true, .delete ref]

/-- Then no row is in use, and the next device gets none. -/
theorem not_failsFull_joinLeave :
    (∃ last, run NeighborRun.step (.start (.init .zero)) joinLeaveRun =
        some last ∧ rowsInUse last.zg.neighbor = ∅) ∧
      ¬ AlongRun NeighborRun.step (fun run call => call.FailsFull run)
        (.start (.init .zero)) (joinLeaveRun ++ [.get 31 true]) := by
  have hresult : (run NeighborRun.step (.start (.init .zero)) joinLeaveRun).map
          (fun last => (decide (rowsInUse last.zg.neighbor = ∅),
            decide (last.zg.neighbor.addrToNeighbor 31 = noNeighbor),
            last.zg.neighbor.baseNeighborUsed,
            last.zg.neighbor.baseNeighborSize)) =
        some (true, true, 31, 32) := by
    decide +kernel
  obtain ⟨last, hlast, hobserved⟩ := map_eq_some_iff.mp hresult
  simp only [Prod.mk.injEq, decide_eq_true_eq] at hobserved
  obtain ⟨hempty, habsent, hused, hsize⟩ := hobserved
  refine ⟨⟨last, hlast, hempty⟩, ?_⟩
  intro hfails
  obtain ⟨zg, hget⟩ := noMemory_iff.mpr ⟨rfl, habsent, by rw [hused, hsize]⟩
  have hcard := hfails.last hlast zg hget
  rw [hsize, hempty, Finset.card_empty] at hcard
  contradiction

end Zboss
