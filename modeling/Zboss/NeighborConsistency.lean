import Zboss.NeighborRows

/-!
# Consistency of the base neighbor table

Runs of the functions of `nwk_neighbor.c` from `zb_nwk_neighbor_init` on.  The
rows and the references to them fit together in every state as long as no
function overruns the rows of the base table, gives a device a second row, or
takes remains of an extended table for rows.
-/

namespace Zboss

open Option TransitionSystem

def tmpNeighborEnt (addrRef : ℕ) (ext : ExtNeighborTblEnt) : NeighborTblEnt :=
  { NeighborTblEnt.zero with
    deviceType := ext.deviceType
    rxOnWhenIdle := decide (ext.deviceType ≠ .endDevice)
    relationship := .noneOfTheAbove
    used := true
    addrRef := addrRef
    lqi := ext.lqi }

/-- The next row of the base table, wherever it lies; what lies there instead
of a row is left out. -/
def NeighborTbl.appendRow (nt : NeighborTbl) (ref : ℕ) (ent : NeighborTblEnt) :
    NeighborTbl :=
  { (nt.setNeighbor ref nt.baseNeighborUsed).setRow nt.baseNeighborUsed ent with
    baseNeighborUsed := nt.baseNeighborUsed + 1 }

def extToBaseRef (g : AddrGlobals) (ext : ExtNeighborTblEnt) (junkRef : ℕ) :
    Option (AddrGlobals × ℕ) := do
  let (g, ret) ← zbAddressByIeee g (zbIeeeAddrDecompress g ext.longAddr) true
    false
  match ret with
  | .ok addrRef => some (g, addrRef)
  | .error _ => some (g, junkRef)

def zbNwkNeighborExtToBaseTmp (zg : Globals) (ext : ExtNeighborTblEnt) (junkRef : ℕ) :
    Option (Globals × Except RetError Unit) :=
  let nt := zg.neighbor
  if nt.baseNeighborUsed ≥ nt.baseNeighborSize then some (zg, .error .noMemory)
  else do
    let (addr, addrRef) ← extToBaseRef zg.addr ext junkRef
    some
      ({ zg with
          addr := addr
          neighbor := nt.appendRow addrRef (tmpNeighborEnt addrRef ext) },
        .ok ())

/-- `zb_nwk_neighbor_get` creates a row although all rows of the base table
have been added: its test is for one row less. -/
def GetOverruns (zg : Globals) (ref : ℕ) (create : Bool) : Prop :=
  create = true ∧ zg.neighbor.addrToNeighbor ref = noNeighbor ∧
    zg.neighbor.baseNeighborUsed = zg.neighbor.baseNeighborSize

instance (zg : Globals) (ref : ℕ) (create : Bool) :
    Decidable (GetOverruns zg ref create) :=
  inferInstanceAs (Decidable (_ ∧ _))

/-- Other code may change everything else meanwhile: the other globals, what
the entries of the extended table contain, and the other fields of rows. -/
def Globals.changeOthers (zg others : Globals) : Globals :=
  { others with
    neighbor :=
      { zg.neighbor with
        extNeighbor := others.neighbor.extNeighbor
        baseNeighbor := fun n =>
          { others.neighbor.baseNeighbor n with
            used := (zg.neighbor.baseNeighbor n).used
            addrRef := (zg.neighbor.baseNeighbor n).addrRef } } }

inductive NeighborOp where
  | get (ref : ℕ) (create : Bool)
  | delete (ref : ℕ)
  | exneighborStart
  | exneighborByShort (panidRef shortAddr : ℕ)
  | exneighborStop (myPanidRef : ℕ) (residue : ℕ → NeighborTblEnt)
  | extToBaseTmp (ext : ExtNeighborTblEnt) (junkRef : ℕ)
  | changeOthers (others : Globals)

def NeighborOp.apply (zg : Globals) : NeighborOp → Option Globals
  | get ref create =>
      if GetOverruns zg ref create then
        (zbAddressLock zg.addr ref).map fun locked =>
          { zg with
            addr := locked
            neighbor := zg.neighbor.appendRow ref (newNeighborEnt ref zg.nib.depth) }
      else (zbNwkNeighborGet zg ref create).map Prod.fst
  | delete ref => some (zbNwkNeighborDelete zg ref).1
  | exneighborStart => zbNwkExneighborStart zg
  | exneighborByShort panidRef shortAddr =>
      some (zbNwkExneighborByShort zg panidRef shortAddr).1
  | exneighborStop myPanidRef residue => zbNwkExneighborStop zg myPanidRef residue
  | extToBaseTmp ext junkRef => (zbNwkNeighborExtToBaseTmp zg ext junkRef).map Prod.fst
  | changeOthers others => some (zg.changeOthers others)

structure NeighborsConsistent (nt : NeighborTbl) : Prop where
  used : nt.baseNeighborUsed ≤ nt.baseNeighborSize
  size : nt.baseNeighborSize ≤ neighborTableSize
  rows : ∀ ref n, n ≠ noNeighbor → (nt.addrToNeighbor ref = n ↔
      n < nt.baseNeighborUsed ∧ (nt.baseNeighbor n).used = true ∧
        (nt.baseNeighbor n).addrRef = ref)

theorem neighborsConsistent_iff {nt : NeighborTbl} :
    NeighborsConsistent nt ↔ RowsSound nt := by
  constructor
  · rintro ⟨hused, hsize, hrows⟩
    refine ⟨hsize, hused, ?_, ?_⟩
    · intro ref href
      exact (hrows ref _ href).mp rfl
    · intro n hn hflag
      refine (hrows _ n ?_).mpr ⟨hn, hflag, rfl⟩
      simp only [neighborTableSize] at hsize
      simp only [noNeighbor]
      omega
  · intro hsound
    refine ⟨hsound.room, hsound.size, ?_⟩
    intro ref n hn
    constructor
    · rintro rfl
      exact hsound.linked ref hn
    · rintro ⟨hlt, hflag, rfl⟩
      exact hsound.genuine n hlt hflag

/-- Row `n` of the base table starts at an offset which fits into a byte. -/
def OffsetFits (n : ℕ) : Prop := roundTo4 (n * neighborTblEntSize) < 2 ^ 8

instance (n : ℕ) : Decidable (OffsetFits n) :=
  inferInstanceAs (Decidable (_ < _))

/-- A new row is not behind the base table and its device has no other one.
When the extended table is laid over the end of the base table, its offset fits
into the byte for it, and the rows behind those in use are no remains of an
earlier one, or there are no holes which they could fill. -/
def NeighborOp.Safe (zg : Globals) : NeighborOp → Prop
  | get ref create => ¬ GetOverruns zg ref create
  | exneighborStart =>
      zg.neighbor.extNeighborSize = 0 → PackSafe zg.neighbor ∧
          OffsetFits (zg.neighbor.baseNeighborSize - cutRows zg.neighbor)
  | extToBaseTmp ext junkRef =>
      zg.neighbor.baseNeighborUsed < zg.neighbor.baseNeighborSize →
        ∀ found ∈ extToBaseRef zg.addr ext junkRef,
          zg.neighbor.addrToNeighbor found.2 = noNeighbor
  | _ => True

instance NeighborOp.decidableSafe (zg : Globals) (op : NeighborOp) :
    Decidable (op.Safe zg) := by
  unfold NeighborOp.Safe
  cases op <;> infer_instance

theorem RowsSound.appendRow
    {nt : NeighborTbl} {ref : ℕ} {ent : NeighborTblEnt} (hsound : RowsSound nt)
    (habsent : nt.addrToNeighbor ref = noNeighbor)
    (hroom : nt.baseNeighborUsed < nt.baseNeighborSize)
    (hused : ent.used = true) (href : ent.addrRef = ref) :
    RowsSound (nt.appendRow ref ent) :=
  hsound.addRow habsent hroom hused href

theorem zbNwkExneighborByShort_rows
    {zg : Globals} (hsound : RowsSound zg.neighbor) (panidRef shortAddr : ℕ) :
    RowsSound (zbNwkExneighborByShort zg panidRef shortAddr).1.neighbor := by
  unfold zbNwkExneighborByShort
  dsimp only
  split
  · exact hsound
  · unfold allocNewExtneiboard
    dsimp only
    split
    · exact hsound
    · exact ⟨hsound.size, hsound.room, hsound.linked, hsound.genuine⟩

theorem exneighborStopRow_rows
    {myPanidRef : ℕ} {state next : Globals × ℕ} {ext : ExtNeighborTblEnt}
    (hsound : RowsSound state.1.neighbor)
    (hrow : exneighborStopRow myPanidRef state ext = some next) :
    RowsSound next.1.neighbor := by
  obtain ⟨zg, hmove, hgive⟩ := bind_eq_some_iff.mp hrow
  refine (giveToBase_rows hgive ?_).2.1
  unfold moveExtNeighbor at hmove
  split at hmove
  · obtain ⟨⟨addr, ret⟩, -, hret⟩ := bind_eq_some_iff.mp hmove
    cases ret with
    | ok addrRef =>
      obtain ⟨nt, hnt, heq⟩ := bind_eq_some_iff.mp hret
      obtain rfl := some.inj heq
      exact (hsound.moveToBase hnt).1
    | error err =>
      obtain rfl := some.inj hret
      exact hsound
  · obtain rfl := some.inj hmove
    exact hsound

theorem zbNwkExneighborStop_rows
    {zg zg' : Globals} {myPanidRef : ℕ} {residue : ℕ → NeighborTblEnt}
    (hsound : RowsSound zg.neighbor)
    (hstop : zbNwkExneighborStop zg myPanidRef residue = some zg') :
    RowsSound zg'.neighbor := by
  unfold zbNwkExneighborStop at hstop
  dsimp only at hstop
  split at hstop
  · obtain ⟨moved, hmoved, heq⟩ := bind_eq_some_iff.mp hstop
    obtain rfl := some.inj heq
    obtain ⟨last, hrun, rfl⟩ := map_eq_some_iff.mp hmoved
    apply RowsSound.restoreBase
    refine @invariant_of_run _ _ _ (fun _ _ => True)
      (fun state : Globals × ℕ => RowsSound state.1.neighbor) ?_ _ _ _ hsound
      (alongRun_of_forall (fun _ _ => trivial) _ _) hrun
    intro state ext next hsound _ hrow
    exact exneighborStopRow_rows hsound hrow
  · obtain rfl := some.inj hstop
    exact hsound.restoreBase _ _

theorem RowsSound.changeOthers
    {zg : Globals} (hsound : RowsSound zg.neighbor) (others : Globals) :
    RowsSound (zg.changeOthers others).neighbor :=
  ⟨hsound.size, hsound.room, hsound.linked, hsound.genuine⟩

theorem RowsSound.apply
    {zg next : Globals} {op : NeighborOp} (hsound : RowsSound zg.neighbor)
    (hsafe : op.Safe zg) (happly : op.apply zg = some next) :
    RowsSound next.neighbor := by
  cases op with
  | get ref create =>
    rw [NeighborOp.apply, if_neg hsafe] at happly
    obtain ⟨⟨zg', ret⟩, hget, rfl⟩ := map_eq_some_iff.mp happly
    exact zbNwkNeighborGet_rows hsound hget
  | delete ref =>
    obtain rfl := some.inj happly
    exact (zbNwkNeighborDelete_rows hsound ref).2.1
  | exneighborStart =>
    exact (zbNwkExneighborStart_rows hsound (fun hstopped =>
      (hsafe hstopped).1) happly).2.1
  | exneighborByShort panidRef shortAddr =>
    obtain rfl := some.inj happly
    exact zbNwkExneighborByShort_rows hsound panidRef shortAddr
  | exneighborStop myPanidRef residue => exact zbNwkExneighborStop_rows hsound happly
  | extToBaseTmp ext junkRef =>
    obtain ⟨⟨zg', ret⟩, hexec, rfl⟩ := map_eq_some_iff.mp happly
    unfold zbNwkNeighborExtToBaseTmp at hexec
    dsimp only at hexec
    split at hexec
    · simp only [some.injEq, Prod.mk.injEq] at hexec
      exact hexec.1 ▸ hsound
    · rename_i hroom
      rw [ge_iff_le, Nat.not_le] at hroom
      obtain ⟨found, hfound, heq⟩ := bind_eq_some_iff.mp hexec
      simp only [some.injEq, Prod.mk.injEq] at heq
      obtain ⟨rfl, -⟩ := heq
      exact hsound.appendRow (hsafe hroom found hfound) hroom rfl rfl
  | changeOthers others =>
    obtain rfl := some.inj happly
    exact hsound.changeOthers others

/-- The tables are consistent in every state of a run of safe calls from
`zb_nwk_neighbor_init` on. -/
theorem neighborsConsistent_of_run (zg : Globals) (ops : List NeighborOp)
    (hinit : zg.neighbor = zbNwkNeighborInit)
    (hsafe : AlongRun NeighborOp.apply (fun zg op => op.Safe zg) zg ops) :
    EveryState NeighborOp.apply (fun zg => NeighborsConsistent zg.neighbor) zg
      ops := by
  refine @everyState_of_invariant _ _ _ _
    (fun zg : Globals => RowsSound zg.neighbor) _ ?_ ?_ _ _ ?_ hsafe
  · intro zg op next hsound hsafe happly
    exact hsound.apply hsafe happly
  · intro zg hsound
    exact neighborsConsistent_iff.mpr hsound
  · rw [hinit]
    exact rowsSound_init

def heardDevice : ExtNeighborTblEnt :=
  { ExtNeighborTblEnt.zero with longAddr := ⟨0, ⟨4, 5, 6, 7, 8⟩⟩ }

/-- A discovery in which a device is heard and gets a row, which is deleted
after another device has got one. -/
theorem neighborsConsistent_of_run_discovery :
    EveryState NeighborOp.apply (fun zg => NeighborsConsistent zg.neighbor)
      (Globals.init .zero)
      [.get 5 true, .exneighborStart, .exneighborByShort 0 1,
        .extToBaseTmp heardDevice 0, .exneighborStop 0 fun _ => .zero,
        .get 6 true, .delete 5, .exneighborStart] :=
  neighborsConsistent_of_run _ _ rfl (by decide +kernel)

/-- The device gets a second row, and no reference leads to the first one. -/
theorem not_neighborsConsistent_of_secondRow :
    ¬ EveryState NeighborOp.apply (fun zg => NeighborsConsistent zg.neighbor)
      (Globals.init .zero)
      [.extToBaseTmp heardDevice 0, .extToBaseTmp heardDevice 0] := by
  intro hevery
  have hresult : (run NeighborOp.apply (Globals.init .zero)
          [.extToBaseTmp heardDevice 0, .extToBaseTmp heardDevice 0]).map
          (fun zg => (zg.neighbor.baseNeighborUsed,
            zg.neighbor.baseNeighbor 0, zg.neighbor.addrToNeighbor 82)) =
        some (2, tmpNeighborEnt 82 heardDevice, 1) := by
    decide +kernel
  obtain ⟨zg, hrun, hobserved⟩ := map_eq_some_iff.mp hresult
  simp only [Prod.mk.injEq] at hobserved
  obtain ⟨hused, hrow, href⟩ := hobserved
  have hrows := (hevery.last hrun).rows 82 0 (by decide)
  rw [hused, hrow, href] at hrows
  exact absurd hrows (by decide)

end Zboss
