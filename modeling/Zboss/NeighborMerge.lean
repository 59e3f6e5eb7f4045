import Zboss.MemorySplit
import Zboss.MovedNeighbors

/-!
# Merging the extended neighbor table into the base table

At the end of a discovery the base table grows into the memory of the rows
which have been moved to it, and the two tables advance with different strides.
One iteration of the loop is described by what becomes of the row it reads: the
bytes which change hands, and the row of the base table which is written.
-/

namespace Zboss

open Function Option TransitionSystem

/-- Sizes with which one half of the array ends at an offset which fits into a
byte, and with which the memory of one extended row is enough for a base row. -/
structure StridedLayout extends EntryLayout where
  base_pos : 0 < baseEntSize
  base_le_ext : baseEntSize ≤ extEntSize
  half_fits : neighborTableSize / 2 * baseEntSize < 2 ^ 8

/-- The memory of an extended row is given to the base table; what is left over
is counted in a byte. -/
def growBase (layout : EntryLayout) (zg : Globals) (freeSize : ℕ) :
    Option (Globals × ℕ) :=
  let nt := zg.neighbor
  let free := (freeSize + layout.extEntSize) % 2 ^ 8
  let size := nt.baseNeighborSize + free / layout.baseEntSize
  if size ≤ neighborTableSize then
    some ({ zg with neighbor := { nt with baseNeighborSize := size } },
        free % layout.baseEntSize)
  else none

def NeighborTbl.rowFor (nt : NeighborTbl) (ref : ℕ) : Option ℕ :=
  if nt.addrToNeighbor ref ≠ noNeighbor then some (nt.addrToNeighbor ref)
  else if nt.baseNeighborUsed < nt.baseNeighborSize then some nt.baseNeighborUsed
  else none

inductive MergeOutcome where
  | foreign
  | unresolved
  | dropped (ref : ℕ)
  | placed (ref n : ℕ)

def MergeOutcome.isAt (ref : ℕ) : MergeOutcome → Bool
  | placed ref' _ => ref' == ref
  | _ => false

def mergeOutcome (zg : Globals) (myPanidRef : ℕ) (ext : ExtNeighborTblEnt) :
    MergeOutcome :=
  if ext.panidRef = myPanidRef then
    match extNeighborRef zg.addr ext with
    | some (_, .ok ref) =>
        match zg.neighbor.rowFor ref with
        | some n => .placed ref n
        | none => .dropped ref
    | _ => .unresolved
  else .foreign

structure MergeRun where
  zg : Globals
  freeSize : ℕ
  merged : List (ExtNeighborTblEnt × MergeOutcome)

namespace MergeRun

def start (zg : Globals) : MergeRun := ⟨zg, 0, []⟩

def step (layout : EntryLayout) (myPanidRef : ℕ) (state : MergeRun)
    (ext : ExtNeighborTblEnt) : Option MergeRun := do
  let zg ← moveExtNeighbor state.zg myPanidRef ext
  let (zg, freeSize) ← growBase layout zg state.freeSize
  some
    { zg
      freeSize
      merged := state.merged ++ [(ext, mergeOutcome state.zg myPanidRef ext)] }

def rowsAt (state : MergeRun) (ref : ℕ) : List ExtNeighborTblEnt :=
  (state.merged.filter fun entry => entry.2.isAt ref).map Prod.fst

end MergeRun

def NeighborTbl.rowOf (nt : NeighborTbl) (ref : ℕ) : Option NeighborTblEnt :=
  if nt.addrToNeighbor ref ≠ noNeighbor then some (nt.baseNeighbor (nt.addrToNeighbor ref))
  else none

section Row

variable {nt nt' : NeighborTbl} {ref : ℕ} {ext : ExtNeighborTblEnt}

def mergedEnt (ref : ℕ) (ent : Option NeighborTblEnt)
    (ext : ExtNeighborTblEnt) : NeighborTblEnt :=
  match ent with
  | some ent =>
      { ent with
        deviceType := if ent.deviceType = .none then ext.deviceType else ent.deviceType
        addrRef := ref
        lqi := ext.lqi }
  | none => movedNeighborEnt ref ext

structure RowPlaced (nt : NeighborTbl) (ref : ℕ) (ext : ExtNeighborTblEnt)
    (nt' : NeighborTbl) : Prop where
  rows : RowsSound nt'
  size : nt'.baseNeighborSize = nt.baseNeighborSize
  used : nt'.baseNeighborUsed ≤ nt.baseNeighborUsed + 1
  dropped : nt.rowFor ref = none → nt' = nt
  self : nt.rowFor ref ≠ none → nt'.rowOf ref = some (mergedEnt ref (nt.rowOf ref) ext)
  others : ∀ other, other ≠ ref → nt'.rowOf other = nt.rowOf other
  frame : ∀ n, nt.rowFor ref ≠ some n → nt'.baseNeighbor n = nt.baseNeighbor n

theorem rowFor_of_present (hpresent : nt.addrToNeighbor ref ≠ noNeighbor) :
    nt.rowFor ref = some (nt.addrToNeighbor ref) :=
  if_pos hpresent

theorem rowFor_of_absent (habsent : nt.addrToNeighbor ref = noNeighbor)
    (hroom : nt.baseNeighborUsed < nt.baseNeighborSize) :
    nt.rowFor ref = some nt.baseNeighborUsed := by
  rw [NeighborTbl.rowFor, if_neg (not_not.mpr habsent), if_pos hroom]

theorem rowFor_eq_none : nt.rowFor ref = none ↔ nt.addrToNeighbor ref = noNeighbor ∧
        nt.baseNeighborSize ≤ nt.baseNeighborUsed := by
  unfold NeighborTbl.rowFor
  split
  · simp [*]
  · split
    · simp
      omega
    · simp_all

theorem rowOf_of_present {n : ℕ} (hrow : nt.addrToNeighbor ref = n)
    (hn : n ≠ noNeighbor) : nt.rowOf ref = some (nt.baseNeighbor n) := by
  rw [NeighborTbl.rowOf, hrow, if_pos hn]

theorem rowOf_of_absent (habsent : nt.addrToNeighbor ref = noNeighbor) :
    nt.rowOf ref = none :=
  if_neg (not_not.mpr habsent)

theorem rowOf_congr (hsame : nt'.addrToNeighbor ref = nt.addrToNeighbor ref)
    (hrow : nt.addrToNeighbor ref ≠ noNeighbor → nt'.baseNeighbor (nt.addrToNeighbor ref) =
        nt.baseNeighbor (nt.addrToNeighbor ref)) :
    nt'.rowOf ref = nt.rowOf ref := by
  by_cases hpresent : nt.addrToNeighbor ref = noNeighbor
  · rw [rowOf_of_absent hpresent, rowOf_of_absent (hsame.trans hpresent)]
  · rw [rowOf_of_present rfl hpresent, rowOf_of_present hsame hpresent, hrow hpresent]

theorem rowOf_setRow (hpresent : nt.addrToNeighbor ref ≠ noNeighbor)
    (ent : NeighborTblEnt) :
    (nt.setRow (nt.addrToNeighbor ref) ent).rowOf ref = some ent := by
  have hrow : (nt.setRow (nt.addrToNeighbor ref) ent).rowOf ref =
      some ((nt.setRow (nt.addrToNeighbor ref) ent).baseNeighbor
        (nt.addrToNeighbor ref)) :=
    rowOf_of_present rfl hpresent
  rw [hrow]
  exact congrArg some (update_self _ _ _)

section

variable (hsound : RowsSound nt)

include hsound

theorem RowsSound.rowFor_lt {n : ℕ}
    (hrow : nt.rowFor ref = some n) : n < nt.baseNeighborSize := by
  unfold NeighborTbl.rowFor at hrow
  split at hrow
  · rename_i hpresent
    obtain rfl := some.inj hrow
    exact Nat.lt_of_lt_of_le (hsound.linked ref hpresent).1 hsound.room
  · split at hrow
    · rename_i hroom
      exact some.inj hrow ▸ hroom
    · contradiction

theorem RowsSound.row_ne {other : ℕ} (hpresent : nt.addrToNeighbor ref ≠ noNeighbor)
    (hother : nt.addrToNeighbor other ≠ noNeighbor) (hne : other ≠ ref) :
    nt.addrToNeighbor other ≠ nt.addrToNeighbor ref := by
  intro heq
  have hrow := (hsound.linked other hother).2.2
  rw [heq, (hsound.linked ref hpresent).2.2] at hrow
  exact hne hrow.symm

theorem RowsSound.rowPlaced_update (hpresent : nt.addrToNeighbor ref ≠ noNeighbor) :
    RowPlaced nt ref ext (nt.setRow (nt.addrToNeighbor ref)
        (mergedEnt ref (some (nt.baseNeighbor (nt.addrToNeighbor ref))) ext)) := by
  obtain ⟨hlt, hused, hown⟩ := hsound.linked ref hpresent
  have hrow := rowFor_of_present hpresent
  refine ⟨hsound.rewriteRow hpresent hused rfl, rfl, Nat.le_succ _, ?_, ?_, ?_, ?_⟩
  · intro hnone
    rw [hrow] at hnone
    contradiction
  · intro _
    rw [rowOf_of_present rfl hpresent]
    exact rowOf_setRow hpresent _
  · intro other hother
    refine rowOf_congr rfl fun hpresent' => ?_
    exact update_of_ne (hsound.row_ne hpresent hpresent' hother) _ _
  · intro n hn
    rw [hrow] at hn
    exact update_of_ne (fun heq => hn (congrArg some heq.symm)) _ _

theorem RowsSound.rowPlaced_append (habsent : nt.addrToNeighbor ref = noNeighbor)
    (hroom : nt.baseNeighborUsed < nt.baseNeighborSize) :
    RowPlaced nt ref ext
      { (nt.setNeighbor ref nt.baseNeighborUsed).setRow nt.baseNeighborUsed
          (movedNeighborEnt ref ext) with
        baseNeighborUsed := nt.baseNeighborUsed + 1 } := by
  have hrow := rowFor_of_absent habsent hroom
  have hplace : nt.baseNeighborUsed ≠ noNeighbor := by
    have hsize := hsound.size
    simp only [neighborTableSize] at hsize
    simp only [noNeighbor]
    omega
  refine ⟨hsound.addRow habsent hroom rfl rfl, rfl, Nat.le_refl _, ?_, ?_, ?_, ?_⟩
  · intro hnone
    rw [hrow] at hnone
    contradiction
  · intro _
    rw [rowOf_of_absent habsent]
    refine (rowOf_of_present (update_self _ _ _) hplace).trans (congrArg some ?_)
    exact update_self _ _ _
  · intro other hother
    refine rowOf_congr (update_of_ne hother _ _) fun hpresent => ?_
    exact update_of_ne (Nat.ne_of_lt (hsound.linked other hpresent).1) _ _
  · intro n hn
    rw [hrow] at hn
    exact update_of_ne (fun heq => hn (congrArg some heq.symm)) _ _

theorem RowsSound.rowPlaced_dropped
    (hnone : nt.rowFor ref = none) : RowPlaced nt ref ext nt :=
  ⟨hsound, rfl, Nat.le_succ _, fun _ => rfl, fun hrow => absurd hnone hrow,
    fun _ _ => rfl, fun _ _ => rfl⟩

theorem RowsSound.moveToBase_placed (ref : ℕ) (ext : ExtNeighborTblEnt) :
    ∃ nt', Zboss.moveToBase nt ref ext = some nt' ∧
      RowPlaced nt ref ext nt' := by
  unfold Zboss.moveToBase
  by_cases hpresent : nt.addrToNeighbor ref ≠ noNeighbor
  · refine ⟨_, ?_, hsound.rowPlaced_update hpresent⟩
    dsimp only
    rw [if_pos hpresent, if_pos (hsound.linked ref hpresent).2.1]
    rfl
  · have habsent := not_not.mp hpresent
    by_cases hroom : nt.baseNeighborUsed < nt.baseNeighborSize
    · refine ⟨_, ?_, hsound.rowPlaced_append habsent hroom⟩
      dsimp only
      rw [if_neg hpresent, if_pos hroom]
    · refine ⟨nt, ?_, hsound.rowPlaced_dropped ?_⟩
      · dsimp only
        rw [if_neg hpresent, if_neg hroom]
      · exact rowFor_eq_none.mpr ⟨habsent, Nat.le_of_not_lt hroom⟩

end

end Row

section Bytes

variable (layout : StridedLayout)

theorem splitBaseNeighbor_half {usedAtStart : ℕ}
    (hhalf : usedAtStart ≤ neighborTableSize / 2) :
    (splitBaseNeighbor layout.toEntryLayout neighborTableSize
        usedAtStart).baseNeighborSize = neighborTableSize / 2 ∧
      (splitBaseNeighbor layout.toEntryLayout neighborTableSize
        usedAtStart).off.toNat = neighborTableSize / 2 * layout.baseEntSize ∧
      (splitBaseNeighbor layout.toEntryLayout neighborTableSize
          usedAtStart).extNeighborSize * layout.extEntSize ≤
        neighborTableSize / 2 * layout.baseEntSize := by
  have hkept : keptBaseRows usedAtStart = neighborTableSize / 2 := max_eq_left hhalf
  have hcut : neighborTableSize - neighborTableSize / 2 =
      neighborTableSize / 2 := rfl
  have hround : roundTo4 (neighborTableSize / 2 * layout.baseEntSize) =
      neighborTableSize / 2 * layout.baseEntSize := by
    rw [roundTo4, neighborTableSize]
    omega
  have hfits := layout.half_fits
  rw [splitBaseNeighbor_eq layout.toEntryLayout
    (Nat.le_trans hhalf (Nat.div_le_self _ _)), hkept, hcut, hround]
  refine ⟨rfl, ?_, ?_⟩
  · rw [UInt8.toNat_ofNat', Nat.mod_eq_of_lt hfits]
  · dsimp only
    rw [toNat_cutBytes (Nat.le_add_left _ _) hfits, Nat.add_sub_cancel,
      Nat.mod_eq_of_lt hfits]
    exact Nat.div_mul_le_self _ _

variable {layout} {zg : Globals} {freeSize i : ℕ}

theorem growBase_of_bytes
    (hbytes : zg.neighbor.baseNeighborSize * layout.baseEntSize + freeSize =
      neighborTableSize / 2 * layout.baseEntSize + i * layout.extEntSize)
    (hfree : freeSize < layout.baseEntSize)
    (hinside : (i + 1) * layout.extEntSize ≤ neighborTableSize / 2 * layout.baseEntSize) :
    ∃ size freeSize', growBase layout.toEntryLayout zg freeSize = some
        ({ zg with
            neighbor := { zg.neighbor with baseNeighborSize := size } },
          freeSize') ∧
      size * layout.baseEntSize + freeSize' =
        neighborTableSize / 2 * layout.baseEntSize + (i + 1) * layout.extEntSize ∧
      freeSize' < layout.baseEntSize ∧ zg.neighbor.baseNeighborSize ≤ size ∧
      size ≤ neighborTableSize := by
  have hfits := layout.half_fits
  have hbyte : (freeSize + layout.extEntSize) % 2 ^ 8 =
      freeSize + layout.extEntSize := by
    rw [Nat.succ_mul] at hinside
    rw [neighborTableSize] at hfits hinside
    exact Nat.mod_eq_of_lt (by omega)
  have hdiv := Nat.div_add_mod (freeSize + layout.extEntSize) layout.baseEntSize
  have hgrown : (zg.neighbor.baseNeighborSize +
        (freeSize + layout.extEntSize) / layout.baseEntSize) * layout.baseEntSize +
        (freeSize + layout.extEntSize) % layout.baseEntSize =
      neighborTableSize / 2 * layout.baseEntSize + (i + 1) * layout.extEntSize := by
    rw [Nat.add_mul, Nat.succ_mul, Nat.mul_comm (_ / _)]
    omega
  have hsize : zg.neighbor.baseNeighborSize +
      (freeSize + layout.extEntSize) / layout.baseEntSize ≤
        neighborTableSize := by
    refine Nat.le_of_mul_le_mul_right ?_ layout.base_pos
    rw [neighborTableSize] at *
    omega
  refine ⟨_, _, ?_, hgrown, Nat.mod_lt _ layout.base_pos, Nat.le_add_right _ _, hsize⟩
  unfold growBase
  dsimp only
  rw [hbyte, if_pos hsize]

theorem rows_of_bytes {size : ℕ} (hbytes : size * layout.baseEntSize + freeSize =
      neighborTableSize / 2 * layout.baseEntSize + i * layout.extEntSize)
    (hfree : freeSize < layout.baseEntSize) :
    neighborTableSize / 2 + i ≤ size := by
  have hstride := Nat.mul_le_mul_left i layout.base_le_ext
  have hlt : (neighborTableSize / 2 + i) * layout.baseEntSize <
      (size + 1) * layout.baseEntSize := by
    rw [Nat.add_mul, Nat.succ_mul]
    omega
  exact Nat.le_of_lt_succ (Nat.lt_of_mul_lt_mul_right hlt)

end Bytes

section Iteration

variable {zg zg' : Globals} {myPanidRef : ℕ} {ext : ExtNeighborTblEnt}

theorem mergeOutcome_of_foreign (hforeign : ext.panidRef ≠ myPanidRef) :
    mergeOutcome zg myPanidRef ext = .foreign :=
  if_neg hforeign

theorem mergeOutcome_of_ok {addr : AddrGlobals} {ref : ℕ}
    (hown : ext.panidRef = myPanidRef)
    (hcall : extNeighborRef zg.addr ext = some (addr, .ok ref)) :
    mergeOutcome zg myPanidRef ext = match zg.neighbor.rowFor ref with
      | some n => .placed ref n
      | none => .dropped ref := by
  rw [mergeOutcome, if_pos hown, hcall]

theorem mergeOutcome_of_error {addr : AddrGlobals} {err : RetError}
    (hown : ext.panidRef = myPanidRef)
    (hcall : extNeighborRef zg.addr ext = some (addr, .error err)) :
    mergeOutcome zg myPanidRef ext = .unresolved := by
  rw [mergeOutcome, if_pos hown, hcall]

theorem rowFor_of_mergeOutcome {ref n : ℕ}
    (houtcome : mergeOutcome zg myPanidRef ext = .placed ref n) :
    zg.neighbor.rowFor ref = some n := by
  unfold mergeOutcome at houtcome
  split at houtcome
  · split at houtcome
    · split at houtcome
      · rename_i hrow
        obtain ⟨rfl, rfl⟩ := MergeOutcome.placed.inj houtcome
        exact hrow
      · contradiction
    · contradiction
  · contradiction

theorem moveExtNeighbor_returns (hsound : RowsSound zg.neighbor)
    (hreturns : ext.panidRef = myPanidRef → extNeighborRef zg.addr ext ≠ none) :
    ∃ zg', moveExtNeighbor zg myPanidRef ext = some zg' := by
  unfold moveExtNeighbor
  by_cases hown : ext.panidRef = myPanidRef
  · rw [if_pos hown]
    obtain ⟨⟨addr, ret⟩, hcall⟩ := ne_none_iff_exists'.mp (hreturns hown)
    rw [hcall]
    cases ret with
    | ok ref =>
      obtain ⟨nt, hmove, -⟩ := hsound.moveToBase_placed ref ext
      exact ⟨{ zg with addr := addr, neighbor := nt }, by
        change (moveToBase zg.neighbor ref ext).bind _ = _
        rw [hmove]
        rfl⟩
    | error err => exact ⟨{ zg with addr := addr }, rfl⟩
  · exact ⟨zg, if_neg hown⟩

theorem moveExtNeighbor_effect (hsound : RowsSound zg.neighbor)
    (hmove : moveExtNeighbor zg myPanidRef ext = some zg') :
    ((∀ ref, (mergeOutcome zg myPanidRef ext).isAt ref = false) ∧
        zg'.neighbor = zg.neighbor ∧
        ∀ ref, mergeOutcome zg myPanidRef ext = .dropped ref →
          zg.neighbor.rowFor ref = none) ∨
      ∃ ref n, mergeOutcome zg myPanidRef ext = .placed ref n ∧
        zg.neighbor.rowFor ref = some n ∧
        RowPlaced zg.neighbor ref ext zg'.neighbor := by
  unfold moveExtNeighbor at hmove
  split at hmove
  · rename_i hown
    obtain ⟨⟨addr, ret⟩, hcall, hret⟩ := bind_eq_some_iff.mp hmove
    cases ret with
    | ok ref =>
      obtain ⟨nt, hnt, heq⟩ := bind_eq_some_iff.mp hret
      obtain rfl := some.inj heq
      obtain ⟨nt', hnt', hplaced⟩ := hsound.moveToBase_placed ref ext
      obtain rfl := some.inj (hnt'.symm.trans hnt)
      have houtcome := mergeOutcome_of_ok hown hcall
      cases hrow : zg.neighbor.rowFor ref with
      | some n =>
        rw [hrow] at houtcome
        exact Or.inr ⟨ref, n, houtcome, hrow, hplaced⟩
      | none =>
        rw [hrow] at houtcome
        refine Or.inl ⟨?_, hplaced.dropped hrow, ?_⟩
        · intro other
          rw [houtcome]
          rfl
        · intro other hdropped
          rw [houtcome] at hdropped
          obtain rfl := MergeOutcome.dropped.inj hdropped
          exact hrow
    | error err =>
      obtain rfl := some.inj hret
      have houtcome := mergeOutcome_of_error hown hcall
      rw [houtcome]
      exact Or.inl ⟨fun _ => rfl, rfl, nofun⟩
  · rename_i hforeign
    obtain rfl := some.inj hmove
    rw [mergeOutcome_of_foreign hforeign]
    exact Or.inl ⟨fun _ => rfl, rfl, nofun⟩

end Iteration

end Zboss
