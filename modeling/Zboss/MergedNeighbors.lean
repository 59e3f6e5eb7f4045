import Zboss.NeighborMerge

/-!
# What the end of a discovery leaves of the rows

The loop of `zb_nwk_exneighbor_stop` over a base table which was at most half
full. No row is written over one which is still to be read, and each device of
the own network gets one row, which collects what was heard of it.
-/

namespace Zboss

open Option List MergeRun TransitionSystem

structure LaidOut (layout : EntryLayout) (usedAtStart : ℕ) (nt : NeighborTbl) : Prop where
  halfFull : usedAtStart ≤ neighborTableSize / 2
  size : nt.baseNeighborSize =
    (splitBaseNeighbor layout neighborTableSize usedAtStart).baseNeighborSize
  extSize : nt.extNeighborSize =
    (splitBaseNeighbor layout neighborTableSize usedAtStart).extNeighborSize
  extUsed : nt.extNeighborUsed ≤ nt.extNeighborSize
  rows : RowsSound nt

def NeighborTbl.IsRowOf (nt : NeighborTbl) (ref n : ℕ) : Prop :=
  n < nt.baseNeighborUsed ∧ (nt.baseNeighbor n).used = true ∧
    (nt.baseNeighbor n).addrRef = ref

def firstType (types : List DeviceType) : DeviceType :=
  (types.find? fun type => decide (type ≠ .none)).getD .none

structure RowMerged (layout : EntryLayout) (off myPanidRef : ℕ)
    (state : MergeRun) (ext : ExtNeighborTblEnt) : Prop where
  apart : ∀ ref n, mergeOutcome state.zg myPanidRef ext = .placed ref n →
    (n + 1) * layout.baseEntSize ≤ off + state.merged.length * layout.extEntSize
  others : ∀ next n, state.step layout myPanidRef ext = some next →
    (∀ ref, mergeOutcome state.zg myPanidRef ext ≠ .placed ref n) →
    next.zg.neighbor.baseNeighbor n = state.zg.neighbor.baseNeighbor n
  foreign : ext.panidRef ≠ myPanidRef → ∀ next,
    state.step layout myPanidRef ext = some next →
    next.zg.neighbor =
      { state.zg.neighbor with
        baseNeighborSize := next.zg.neighbor.baseNeighborSize }

/-- After the loop each reference at which a row was placed has exactly one
row.  It has the link quality of the last of these rows, and the first type
which is known. -/
structure Merged (nt : NeighborTbl) (last : MergeRun) : Prop where
  heard : last.merged.map Prod.fst = extNeighbors nt
  one : ∀ ref, last.rowsAt ref ≠ [] → ∃! n, last.zg.neighbor.IsRowOf ref n
  lqi : ∀ ref n ext, last.zg.neighbor.IsRowOf ref n →
    (last.rowsAt ref).getLast? = some ext →
    (last.zg.neighbor.baseNeighbor n).lqi = ext.lqi
  deviceType : ∀ ref n, last.zg.neighbor.IsRowOf ref n →
    (last.zg.neighbor.baseNeighbor n).deviceType =
      firstType ((nt.rowOf ref).toList.map (·.deviceType) ++
        (last.rowsAt ref).map (·.deviceType))
  dropped : ∀ k ext ref, last.merged[k]? = some (ext, .dropped ref) →
    k = 0 ∧ nt.baseNeighborUsed = neighborTableSize / 2 ∧
      nt.addrToNeighbor ref = noNeighbor

structure MergesRows (layout : EntryLayout) (usedAtStart myPanidRef : ℕ)
    (zg : Globals) : Prop where
  each : AlongRun (step layout myPanidRef) (RowMerged layout
      (splitBaseNeighbor layout neighborTableSize usedAtStart).off.toNat
      myPanidRef)
    (.start zg) (extNeighbors zg.neighbor)
  returns : AlongRun (step layout myPanidRef) (fun state ext => ext.panidRef = myPanidRef →
          extNeighborRef state.zg.addr ext ≠ none)
        (.start zg) (extNeighbors zg.neighbor) →
      ∃ last, run (step layout myPanidRef) (.start zg)
        (extNeighbors zg.neighbor) = some last
  merged : ∀ last, run (step layout myPanidRef) (.start zg)
      (extNeighbors zg.neighbor) = some last →
    Merged zg.neighbor last

/-! ## The whole loop -/

section Loop

variable {layout : StridedLayout} {nt : NeighborTbl}
  {state next : MergeRun} {zg : Globals} {myPanidRef : ℕ}
  {ext : ExtNeighborTblEnt}

/-- After `merged.length` iterations: the base table has all memory before the
next extended row, with a row left for a new device unless the table was half
full and nothing was read yet, and the rows collect what was merged. -/
structure MergeInvariant (layout : StridedLayout) (nt : NeighborTbl)
    (state : MergeRun) : Prop where
  rows : RowsSound state.zg.neighbor
  bytes : state.zg.neighbor.baseNeighborSize * layout.baseEntSize + state.freeSize =
      neighborTableSize / 2 * layout.baseEntSize + state.merged.length * layout.extEntSize
  free : state.freeSize < layout.baseEntSize
  room : (state.merged = [] ∧ state.zg.neighbor = nt) ∨
    state.zg.neighbor.baseNeighborUsed < neighborTableSize / 2 + state.merged.length
  collected : ∀ ref, state.zg.neighbor.rowOf ref =
    (state.rowsAt ref).foldl (fun ent ext => some (mergedEnt ref ent ext)) (nt.rowOf ref)
  dropped : ∀ k ext ref, state.merged[k]? = some (ext, .dropped ref) →
    k = 0 ∧ nt.baseNeighborUsed = neighborTableSize / 2 ∧
      nt.addrToNeighbor ref = noNeighbor

section

variable (hinvariant : MergeInvariant layout nt state)

include hinvariant

theorem MergeInvariant.size : neighborTableSize / 2 + state.merged.length ≤
      state.zg.neighbor.baseNeighborSize :=
  rows_of_bytes hinvariant.bytes hinvariant.free

theorem MergeInvariant.full {ref : ℕ} (hhalf : nt.baseNeighborUsed ≤ neighborTableSize / 2)
    (hnone : state.zg.neighbor.rowFor ref = none) :
    state.merged = [] ∧ nt.baseNeighborUsed = neighborTableSize / 2 ∧
      nt.addrToNeighbor ref = noNeighbor := by
  obtain ⟨habsent, hfull⟩ := rowFor_eq_none.mp hnone
  have hsize := hinvariant.size
  rcases hinvariant.room with ⟨hfirst, hsame⟩ | hroom
  · rw [hfirst, hsame, length_nil] at hsize
    rw [hsame] at habsent hfull
    exact ⟨hfirst, by omega, habsent⟩
  · omega

theorem MergeInvariant.grown (hinside : (state.merged.length + 1) * layout.extEntSize ≤
      neighborTableSize / 2 * layout.baseEntSize)
    (hmove : moveExtNeighbor state.zg myPanidRef ext = some zg)
    (hsize : zg.neighbor.baseNeighborSize = state.zg.neighbor.baseNeighborSize) :
    ∃ size freeSize, state.step layout.toEntryLayout myPanidRef ext = some
        ⟨{ zg with
            neighbor := { zg.neighbor with baseNeighborSize := size } },
          freeSize,
          state.merged ++ [(ext, mergeOutcome state.zg myPanidRef ext)]⟩ ∧
      size * layout.baseEntSize + freeSize = neighborTableSize / 2 * layout.baseEntSize +
          (state.merged.length + 1) * layout.extEntSize ∧
      freeSize < layout.baseEntSize ∧ zg.neighbor.baseNeighborSize ≤ size ∧
      size ≤ neighborTableSize := by
  have hbytes := hinvariant.bytes
  rw [← hsize] at hbytes
  obtain ⟨size, freeSize, hgrow, hrest⟩ := growBase_of_bytes hbytes hinvariant.free hinside
  refine ⟨size, freeSize, ?_, hrest⟩
  unfold step
  rw [hmove]
  dsimp only [bind_eq_bind, bind_some]
  rw [hgrow]
  rfl

end

theorem RowsSound.grown {size : ℕ} (hsound : RowsSound nt)
    (hgrown : nt.baseNeighborSize ≤ size) (hsize : size ≤ neighborTableSize) :
    RowsSound { nt with baseNeighborSize := size } :=
  ⟨hsize, Nat.le_trans hsound.room hgrown, hsound.linked, hsound.genuine⟩

theorem rowsAt_of_merged {outcome : MergeOutcome}
    (hmerged : next.merged = state.merged ++ [(ext, outcome)]) (ref : ℕ) :
    next.rowsAt ref = state.rowsAt ref ++ if outcome.isAt ref then [ext] else [] := by
  rw [rowsAt, rowsAt, hmerged, filter_append, map_append]
  congr 1
  cases hat : outcome.isAt ref with
  | false => simp [hat]
  | true => simp [hat]

section

variable (hinvariant : MergeInvariant layout nt state)

include hinvariant

theorem MergeInvariant.collected_placed {ref n : ℕ} {nt' : NeighborTbl}
    (hplaced : RowPlaced state.zg.neighbor ref ext nt')
    (hrow : state.zg.neighbor.rowFor ref = some n)
    (hmerged : next.merged = state.merged ++ [(ext, .placed ref n)])
    (other : ℕ) :
    nt'.rowOf other = (next.rowsAt other).foldl
        (fun ent ext => some (mergedEnt other ent ext)) (nt.rowOf other) := by
  rw [rowsAt_of_merged hmerged, foldl_append, ← hinvariant.collected]
  by_cases heq : ref = other
  · subst heq
    rw [hplaced.self (by rw [hrow]; nofun)]
    simp [MergeOutcome.isAt]
  · rw [hplaced.others other (Ne.symm heq)]
    simp [MergeOutcome.isAt, heq]

theorem MergeInvariant.collected_other {outcome : MergeOutcome}
    (hnot : ∀ ref, outcome.isAt ref = false)
    (hmerged : next.merged = state.merged ++ [(ext, outcome)]) (ref : ℕ) :
    state.zg.neighbor.rowOf ref = (next.rowsAt ref).foldl
        (fun ent ext => some (mergedEnt ref ent ext)) (nt.rowOf ref) := by
  rw [rowsAt_of_merged hmerged, hnot ref, hinvariant.collected]
  simp

theorem MergeInvariant.moved (hhalf : nt.baseNeighborUsed ≤ neighborTableSize / 2)
    (hinside : (state.merged.length + 1) * layout.extEntSize ≤
      neighborTableSize / 2 * layout.baseEntSize)
    (hmove : moveExtNeighbor state.zg myPanidRef ext = some zg)
    (hrows : RowsSound zg.neighbor)
    (hsize : zg.neighbor.baseNeighborSize = state.zg.neighbor.baseNeighborSize)
    (hused : zg.neighbor.baseNeighborUsed ≤ state.zg.neighbor.baseNeighborUsed + 1)
    (hcollected : ∀ next : MergeRun, next.merged =
        state.merged ++ [(ext, mergeOutcome state.zg myPanidRef ext)] →
      ∀ ref, zg.neighbor.rowOf ref = (next.rowsAt ref).foldl
          (fun ent ext => some (mergedEnt ref ent ext)) (nt.rowOf ref))
    (hdropped : ∀ ref, mergeOutcome state.zg myPanidRef ext = .dropped ref →
      state.zg.neighbor.rowFor ref = none) :
    ∃ next, state.step layout.toEntryLayout myPanidRef ext = some next ∧
      next.merged = state.merged ++ [(ext, mergeOutcome state.zg myPanidRef ext)] ∧
      next.zg.neighbor =
        { zg.neighbor with
          baseNeighborSize := next.zg.neighbor.baseNeighborSize } ∧
      MergeInvariant layout nt next := by
  obtain ⟨size, freeSize, hnext, hbytes, hfree, hgrown, hle⟩ :=
    hinvariant.grown hinside hmove hsize
  refine ⟨_, hnext, rfl, rfl, hrows.grown hgrown hle, ?_, hfree, ?_, hcollected _ rfl, ?_⟩
  · rw [length_append, length_singleton]
    exact hbytes
  · right
    rw [length_append, length_singleton]
    change zg.neighbor.baseNeighborUsed < _
    rcases hinvariant.room with ⟨hfirst, hsame⟩ | hroom
    · -- The table has one half of the rows, whatever was done to them.
      have hroom := hrows.room
      have hbytes := hinvariant.bytes
      have hfree := hinvariant.free
      rw [hfirst, length_nil, Nat.zero_mul, Nat.add_zero] at hbytes
      have hhalf : state.zg.neighbor.baseNeighborSize ≤
          neighborTableSize / 2 :=
        Nat.le_of_mul_le_mul_right (by omega) layout.base_pos
      omega
    · omega
  · intro k other ref hk
    by_cases hearlier : k < state.merged.length
    · rw [List.getElem?_append_left hearlier] at hk
      exact hinvariant.dropped k other ref hk
    · rw [List.getElem?_append_right (Nat.le_of_not_lt hearlier),
        List.getElem?_singleton] at hk
      split at hk
      · rename_i hlast
        obtain ⟨rfl, houtcome⟩ := some_pair_inj hk
        obtain ⟨hfirst, hrest⟩ := hinvariant.full hhalf (hdropped ref houtcome)
        rw [hfirst, length_nil] at hlast
        exact ⟨hlast, hrest⟩
      · contradiction

theorem MergeInvariant.step (hhalf : nt.baseNeighborUsed ≤ neighborTableSize / 2)
    (hinside : (state.merged.length + 1) * layout.extEntSize ≤
      neighborTableSize / 2 * layout.baseEntSize)
    (hmove : moveExtNeighbor state.zg myPanidRef ext = some zg) :
    ∃ next, state.step layout.toEntryLayout myPanidRef ext = some next ∧
      next.merged = state.merged ++ [(ext, mergeOutcome state.zg myPanidRef ext)] ∧
      next.zg.neighbor =
        { zg.neighbor with
          baseNeighborSize := next.zg.neighbor.baseNeighborSize } ∧
      MergeInvariant layout nt next := by
  rcases moveExtNeighbor_effect hinvariant.rows hmove with
    ⟨hnot, hsame, hnone⟩ | ⟨ref, n, houtcome, hrow, hplaced⟩
  · refine hinvariant.moved hhalf hinside hmove (hsame ▸ hinvariant.rows)
      (congrArg (·.baseNeighborSize) hsame) ?_ ?_ hnone
    · rw [hsame]
      exact Nat.le_succ _
    · intro next hmerged
      rw [hsame]
      exact hinvariant.collected_other hnot hmerged
  · refine hinvariant.moved hhalf hinside hmove hplaced.rows hplaced.size
      hplaced.used ?_ ?_
    · intro next hmerged
      rw [houtcome] at hmerged
      exact hinvariant.collected_placed hplaced hrow hmerged
    · rw [houtcome]
      nofun

theorem MergeInvariant.rowMerged (hhalf : nt.baseNeighborUsed ≤ neighborTableSize / 2)
    (hinside : (state.merged.length + 1) * layout.extEntSize ≤
      neighborTableSize / 2 * layout.baseEntSize) {off : ℕ}
    (hoff : off = neighborTableSize / 2 * layout.baseEntSize) :
    RowMerged layout.toEntryLayout off myPanidRef state ext := by
  have hspec : ∀ next, state.step layout.toEntryLayout myPanidRef ext = some next →
        ∃ zg, moveExtNeighbor state.zg myPanidRef ext = some zg ∧ next.zg.neighbor =
            { zg.neighbor with
              baseNeighborSize := next.zg.neighbor.baseNeighborSize } := by
    intro next hstep
    obtain ⟨zg, hmove, -⟩ := bind_eq_some_iff.mp hstep
    obtain ⟨next', hstep', -, hneighbor, -⟩ := hinvariant.step hhalf hinside hmove
    obtain rfl := some.inj (hstep.symm.trans hstep')
    exact ⟨zg, hmove, hneighbor⟩
  constructor
  · intro ref n houtcome
    have hlt := hinvariant.rows.rowFor_lt (rowFor_of_mergeOutcome houtcome)
    have hmul : (n + 1) * layout.baseEntSize ≤
        state.zg.neighbor.baseNeighborSize * layout.baseEntSize :=
      Nat.mul_le_mul_right _ hlt
    have hbytes := hinvariant.bytes
    rw [hoff]
    omega
  · intro next n hstep hnot
    obtain ⟨zg, hmove, hneighbor⟩ := hspec next hstep
    rw [hneighbor]
    change zg.neighbor.baseNeighbor n = _
    rcases moveExtNeighbor_effect hinvariant.rows hmove with
      ⟨-, hsame, -⟩ | ⟨ref, m, houtcome, hrow, hplaced⟩
    · rw [hsame]
    · refine hplaced.frame n ?_
      intro hn
      rw [hrow] at hn
      exact hnot ref (houtcome.trans (congrArg _ (some.inj hn)))
  · intro hforeign next hstep
    obtain ⟨zg, hmove, hneighbor⟩ := hspec next hstep
    rw [moveExtNeighbor, if_neg hforeign] at hmove
    obtain rfl := some.inj hmove
    exact hneighbor

end

theorem mergeInvariant_start (hrows : RowsSound zg.neighbor)
    (hsize : zg.neighbor.baseNeighborSize = neighborTableSize / 2) :
    MergeInvariant layout zg.neighbor (.start zg) := by
  refine ⟨hrows, ?_, layout.base_pos, Or.inl ⟨rfl, rfl⟩, fun _ => rfl, nofun⟩
  change zg.neighbor.baseNeighborSize * _ + 0 = _ + 0 * _
  rw [hsize, Nat.zero_mul]

end Loop

/-! ## What is known of a device -/

section Collected

variable {ref : ℕ} {ent : Option NeighborTblEnt} {rows : List ExtNeighborTblEnt}
  {merged : NeighborTblEnt}

theorem firstType_merge (first second : DeviceType) (rest : List DeviceType) :
    firstType ((if first = .none then second else first) :: rest) =
      firstType (first :: second :: rest) := by
  by_cases hnone : first = .none
  · simp [firstType, hnone]
  · simp [firstType, hnone]

theorem collected_deviceType
    (hmerged : rows.foldl (fun ent ext => some (mergedEnt ref ent ext)) ent =
      some merged) :
    merged.deviceType =
      firstType (ent.toList.map (·.deviceType) ++ rows.map (·.deviceType)) := by
  induction rows generalizing ent with
  | nil =>
    obtain rfl := hmerged
    by_cases hnone : merged.deviceType = .none
    · simp [firstType, hnone]
    · simp [firstType, hnone]
  | cons ext rest ih =>
    rw [ih hmerged]
    cases ent with
    | none => rfl
    | some ent => exact firstType_merge _ _ _

theorem collected_lqi {ext : ExtNeighborTblEnt}
    (hmerged : rows.foldl (fun ent ext => some (mergedEnt ref ent ext)) ent = some merged)
    (hlast : rows.getLast? = some ext) : merged.lqi = ext.lqi := by
  obtain ⟨earlier, rfl⟩ := List.getLast?_eq_some_iff.mp hlast
  rw [foldl_append] at hmerged
  obtain rfl := some.inj hmerged
  unfold mergedEnt
  split
  · rfl
  · rfl

theorem collected_ne_none (ref : ℕ) (ent : Option NeighborTblEnt) (hrows : rows ≠ []) :
    rows.foldl (fun ent ext => some (mergedEnt ref ent ext)) ent ≠ none := by
  rcases eq_nil_or_concat rows with hnil | ⟨earlier, ext, rfl⟩
  · contradiction
  · rw [concat_eq_append, foldl_append]
    nofun

end Collected

theorem RowsSound.isRowOf_iff {nt : NeighborTbl} {ref n : ℕ} (hsound : RowsSound nt) :
    nt.IsRowOf ref n ↔ nt.addrToNeighbor ref = n ∧ n ≠ noNeighbor := by
  constructor
  · rintro ⟨hlt, hused, rfl⟩
    exact ⟨hsound.genuine n hlt hused, hsound.row_ne_noNeighbor hlt⟩
  · rintro ⟨rfl, hpresent⟩
    exact hsound.linked ref hpresent

theorem RowsSound.rowOf_of_isRowOf {nt : NeighborTbl} {ref n : ℕ}
    (hsound : RowsSound nt) (hrow : nt.IsRowOf ref n) :
    nt.rowOf ref = some (nt.baseNeighbor n) := by
  obtain ⟨hplace, hpresent⟩ := hsound.isRowOf_iff.mp hrow
  exact rowOf_of_present hplace hpresent

theorem MergeInvariant.merged {layout : StridedLayout} {nt : NeighborTbl}
    {last : MergeRun} (hinvariant : MergeInvariant layout nt last)
    (hheard : last.merged.map Prod.fst = extNeighbors nt) :
    Merged nt last where
  heard := hheard
  one ref hplaced := by
    have hrow := collected_ne_none ref (nt.rowOf ref) hplaced
    rw [← hinvariant.collected] at hrow
    have hpresent : last.zg.neighbor.addrToNeighbor ref ≠ noNeighbor := by
      intro habsent
      exact hrow (rowOf_of_absent habsent)
    refine ⟨_, hinvariant.rows.isRowOf_iff.mpr ⟨rfl, hpresent⟩, ?_⟩
    intro n hn
    exact (hinvariant.rows.isRowOf_iff.mp hn).1.symm
  lqi ref n ext hrow hlast := by
    have hcollected := hinvariant.rows.rowOf_of_isRowOf hrow
    rw [hinvariant.collected] at hcollected
    exact collected_lqi hcollected hlast
  deviceType ref n hrow := by
    have hcollected := hinvariant.rows.rowOf_of_isRowOf hrow
    rw [hinvariant.collected] at hcollected
    exact collected_deviceType hcollected
  dropped := hinvariant.dropped

section Run

variable {layout : StridedLayout} {nt : NeighborTbl} {state : MergeRun}
  {rows : List ExtNeighborTblEnt} {off myPanidRef : ℕ}

structure LoopSpec (layout : StridedLayout) (nt : NeighborTbl)
    (off myPanidRef : ℕ) (state : MergeRun) (rows : List ExtNeighborTblEnt) :
    Prop where
  each : AlongRun (step layout.toEntryLayout myPanidRef)
    (RowMerged layout.toEntryLayout off myPanidRef) state rows
  returns : AlongRun (step layout.toEntryLayout myPanidRef)
        (fun state ext => ext.panidRef = myPanidRef →
          extNeighborRef state.zg.addr ext ≠ none) state rows →
      ∃ last, run (step layout.toEntryLayout myPanidRef) state rows = some last
  last : ∀ last, run (step layout.toEntryLayout myPanidRef) state rows = some last →
      MergeInvariant layout nt last ∧
        last.merged.map Prod.fst = state.merged.map Prod.fst ++ rows

theorem MergeInvariant.loopSpec (hinvariant : MergeInvariant layout nt state)
    (hhalf : nt.baseNeighborUsed ≤ neighborTableSize / 2)
    (hinside : (state.merged.length + rows.length) * layout.extEntSize ≤
      neighborTableSize / 2 * layout.baseEntSize)
    (hoff : off = neighborTableSize / 2 * layout.baseEntSize) :
    LoopSpec layout nt off myPanidRef state rows := by
  induction rows generalizing state with
  | nil =>
    refine ⟨trivial, fun _ => ⟨state, rfl⟩, ?_⟩
    intro last hlast
    obtain rfl := some.inj hlast
    exact ⟨hinvariant, (append_nil _).symm⟩
  | cons ext rest ih =>
    have hfirst : (state.merged.length + 1) * layout.extEntSize ≤
        neighborTableSize / 2 * layout.baseEntSize := by
      refine Nat.le_trans (Nat.mul_le_mul_right _ ?_) hinside
      rw [length_cons]
      omega
    have hrest : ∀ next, state.step layout.toEntryLayout myPanidRef ext = some next →
          LoopSpec layout nt off myPanidRef next rest ∧ next.merged.map Prod.fst =
              state.merged.map Prod.fst ++ [ext] := by
      intro next hstep
      obtain ⟨zg, hmove, -⟩ := bind_eq_some_iff.mp hstep
      obtain ⟨next', hstep', hmerged, -, hnext⟩ := hinvariant.step hhalf hfirst hmove
      obtain rfl := some.inj (hstep.symm.trans hstep')
      refine ⟨ih hnext ?_, ?_⟩
      · rw [hmerged, length_append, length_singleton, Nat.add_assoc, Nat.add_comm 1]
        exact hinside
      · rw [hmerged, map_append]
        rfl
    refine ⟨⟨hinvariant.rowMerged hhalf hfirst hoff, ?_⟩, ?_, ?_⟩
    · intro next hstep
      exact (hrest next hstep).1.each
    · rintro ⟨hreturns, hlater⟩
      obtain ⟨zg, hmove⟩ := moveExtNeighbor_returns hinvariant.rows hreturns
      obtain ⟨next, hstep, -⟩ := hinvariant.step hhalf hfirst hmove
      obtain ⟨last, hlast⟩ := (hrest next hstep).1.returns (hlater next hstep)
      exact ⟨last, run_cons_eq_some.mpr ⟨next, hstep, hlast⟩⟩
    · intro last hrun
      obtain ⟨next, hstep, hlast⟩ := run_cons_eq_some.mp hrun
      obtain ⟨hspec, hheard⟩ := hrest next hstep
      obtain ⟨hinvariant', hheard'⟩ := hspec.last last hlast
      refine ⟨hinvariant', ?_⟩
      rw [hheard', hheard, append_assoc]
      rfl

end Run

/-- However the rows of the own network and those of others are mixed, a table
which is at most half full takes each device once.  Only the first row may find
no place, in a table which is exactly half full; of several rows for one
reference the last gives the link quality, and the first the type unless it was
known. -/
theorem mergesRows_of_laidOut (layout : StridedLayout)
    (usedAtStart myPanidRef : ℕ) (zg : Globals)
    (hlaid : LaidOut layout.toEntryLayout usedAtStart zg.neighbor) :
    MergesRows layout.toEntryLayout usedAtStart myPanidRef zg := by
  obtain ⟨hsplit, hoff, hext⟩ := splitBaseNeighbor_half layout hlaid.halfFull
  have hsize := hlaid.size.trans hsplit
  have hhalf : zg.neighbor.baseNeighborUsed ≤ neighborTableSize / 2 :=
    hsize ▸ hlaid.rows.room
  have hinvariant : MergeInvariant layout zg.neighbor (.start zg) :=
    mergeInvariant_start hlaid.rows hsize
  have hinside : ((start zg).merged.length +
          (extNeighbors zg.neighbor).length) * layout.extEntSize ≤
        neighborTableSize / 2 * layout.baseEntSize := by
    refine Nat.le_trans (Nat.mul_le_mul_right _ ?_) hext
    have hlength : (extNeighbors zg.neighbor).length = zg.neighbor.extNeighborUsed := by
      rw [extNeighbors, length_map, length_range]
    rw [hlength, ← hlaid.extSize]
    change 0 + _ ≤ _
    rw [Nat.zero_add]
    exact hlaid.extUsed
  have hspec : LoopSpec layout zg.neighbor _ myPanidRef (.start zg)
      (extNeighbors zg.neighbor) :=
    hinvariant.loopSpec hhalf hinside hoff
  refine ⟨hspec.each, hspec.returns, ?_⟩
  intro last hlast
  obtain ⟨hinvariant', hheard⟩ := hspec.last last hlast
  exact hinvariant'.merged hheard

def packedStrided : StridedLayout where
  toEntryLayout := packedLayout
  base_pos := by decide
  base_le_ext := by decide
  half_fits := by decide

def twoNetworks : Globals :=
  { Globals.init .zero with
    neighbor :=
      { zbNwkNeighborInit with
        baseNeighborSize := 16
        extNeighborSize := 14
        extNeighborUsed := 2
        extNeighbor := fun i =>
          { ExtNeighborTblEnt.zero with shortAddr := i + 1, panidRef := i } } }

theorem mergesRows_twoNetworks :
    MergesRows packedLayout 0 0 twoNetworks :=
  mergesRows_of_laidOut packedStrided 0 0 twoNetworks
    ⟨by decide, by decide, by decide, by decide,
      ⟨by decide, by decide, fun _ href => absurd rfl href,
        fun _ hn => absurd hn (Nat.not_lt_zero _)⟩⟩

def MergeOutcome.ref : MergeOutcome → Option ℕ
  | foreign | unresolved => none
  | dropped ref => some ref
  | placed ref _ => some ref

instance (nt : NeighborTbl) (ref n : ℕ) : Decidable (nt.IsRowOf ref n) :=
  inferInstanceAs (Decidable (_ ∧ _))

def CarriesRow (nt : NeighborTbl) (ref : ℕ) (ext : ExtNeighborTblEnt) : Prop :=
  ∃ n, n < nt.baseNeighborUsed ∧
    (∀ m, m < nt.baseNeighborUsed → (nt.IsRowOf ref m ↔ m = n)) ∧
    (nt.baseNeighbor n).lqi = ext.lqi ∧
    (nt.baseNeighbor n).deviceType = ext.deviceType

instance (nt : NeighborTbl) (ref : ℕ) (ext : ExtNeighborTblEnt) :
    Decidable (CarriesRow nt ref ext) :=
  inferInstanceAs (Decidable (∃ n, n < _ ∧ _))

def CarriesRows (last : MergeRun) : Prop :=
  ∀ entry ∈ last.merged, ∀ ref ∈ entry.2.ref, CarriesRow last.zg.neighbor ref entry.1

instance (last : MergeRun) : Decidable (CarriesRows last) :=
  inferInstanceAs (Decidable (∀ entry ∈ _, ∀ ref ∈ _, _))

def hear (zg : Globals) (shortAddr : ℕ) (lqi : UInt8) : Globals :=
  let (zg, ret) := zbNwkExneighborByShort zg 0 shortAddr
  fillExtNeighbor zg ret 0 ⟨lqi, 0, 0, .router⟩

def knownDevices : ℕ → Option Globals
  | 0 => some (Globals.init .zero)
  | count + 1 => do
      let zg ← knownDevices count
      let (addr, ret) ← zbAddressByShort zg.addr (count + 1) true false
      match ret with
      | .ok ref => (zbNwkNeighborGet { zg with addr } ref true).map Prod.fst
      | .error _ => none

def heardWhenHalfFull : Option Globals := do
  let zg ← knownDevices 16
  let zg ← zbNwkExneighborStart zg
  some (hear zg 17 0)

def heardAsRouter : Option Globals := do
  let zg ← knownDevices 1
  let zg ← zbNwkExneighborStart zg
  some (hear zg 1 0)

def heardTwice : Option Globals := do
  let (addr, _) ←
    zbAddressUpdate (Globals.init .zero).addr sampleIeee 5 false
  let zg ← zbNwkExneighborStart { Globals.init .zero with addr }
  let (zg, ret) ← zbNwkExneighborByIeee (hear zg 5 10) 0 sampleIeee
  some (fillExtNeighbor zg ret 0 ⟨20, 0, 0, .router⟩)

/-- After the discovery the loop returns, and a row is not as it was heard. -/
def LosesRow (discovery : Option Globals) : Prop :=
  ∃ zg last, discovery = some zg ∧ run (step packedLayout 0) (.start zg)
        (extNeighbors zg.neighbor) = some last ∧
      ¬ CarriesRows last

theorem losesRow_of_eval {discovery : Option Globals} (heval : (discovery.bind fun zg =>
        (run (step packedLayout 0) (.start zg) (extNeighbors zg.neighbor)).map fun last =>
            decide (CarriesRows last)) = some false) :
    LosesRow discovery := by
  obtain ⟨zg, hzg, hmap⟩ := bind_eq_some_iff.mp heval
  obtain ⟨last, hlast, hcarries⟩ := map_eq_some_iff.mp hmap
  exact ⟨zg, last, hzg, hlast, of_decide_eq_false hcarries⟩

/-- The new device is dropped, the row stays that of an end device, and the
first link quality is overwritten. -/
theorem not_carriesRows : LosesRow heardWhenHalfFull ∧ LosesRow heardAsRouter ∧
      LosesRow heardTwice :=
  ⟨losesRow_of_eval (by decide +kernel), losesRow_of_eval (by decide +kernel),
    losesRow_of_eval (by decide +kernel)⟩

end Zboss
