import Zboss.BoundedMemory
import Zboss.NeighborConsistency

/-!
# The memory of the extended neighbor table

`zb_nwk_exneighbor_start` gives the end of the array `base_neighbor` to the
extended table. Where it begins is kept in a byte, though the rows before it may
take more than 255 bytes: the table then lies over rows in use.
-/

namespace Zboss

open BoundedMemory TransitionSystem

/-- `sizeof` of the two kinds of entries, the bytes of a new entry of the
extended table, and whether the bytes of one are those of a device. -/
structure EntryLayout where
  baseEntSize : ℕ
  extEntSize : ℕ
  newEnt : ℕ → ℕ → Vector UInt8 extEntSize
  isFor : List UInt8 → ℕ → ℕ → Bool

/-- How the array is split: the number of rows which stay in the base table,
where the extended table begins, and its size. -/
structure MemorySplit where
  baseNeighborSize : ℕ
  off : UInt8
  extNeighborSize : ℕ

/-- The number of rows to cut, as it is kept in a byte: one half, or what is
not in use. -/
def rowsToCut (baseNeighborSize baseNeighborUsed : ℕ) : UInt8 :=
  let half := UInt8.ofNat (baseNeighborSize / 2)
  if baseNeighborUsed > baseNeighborSize - half.toNat then
    UInt8.ofNat (baseNeighborSize - baseNeighborUsed)
  else half

/-- The second part of `zb_nwk_exneighbor_start`, without its assertion. -/
def splitBaseNeighbor (layout : EntryLayout)
    (baseNeighborSize baseNeighborUsed : ℕ) : MemorySplit :=
  let cut := (rowsToCut baseNeighborSize baseNeighborUsed).toNat
  let size := baseNeighborSize - cut
  let bytes := size * layout.baseEntSize
  let off := UInt8.ofNat (roundTo4 bytes)
  let cutBytes := UInt8.ofNat (cut * layout.baseEntSize) - (off - UInt8.ofNat bytes)
  { baseNeighborSize := size
    off
    extNeighborSize := cutBytes.toNat / layout.extEntSize }

structure NeighborArea (layout : EntryLayout) where
  array : Vector UInt8 (neighborTableSize * layout.baseEntSize)
  split : MemorySplit
  extNeighborUsed : ℕ

namespace NeighborArea

variable {layout : EntryLayout}

def extByte (area : NeighborArea layout) (k : ℕ) : ℕ :=
  area.split.off.toNat + k * layout.extEntSize

def row (area : NeighborArea layout) (n : ℕ) : List UInt8 :=
  window area.array (n * layout.baseEntSize) layout.baseEntSize

/-- `alloc_new_extneiboard`; `none` is a write behind the array. -/
def allocNewExtneiboard (area : NeighborArea layout) (panidRef shortAddr : ℕ) :
    Option (NeighborArea layout × Except RetError ℕ) := do
  let k := area.extNeighborUsed
  if k = area.split.extNeighborSize then some (area, .error .noMemory)
  else
    let array ← store area.array (area.extByte k)
      (layout.newEnt panidRef shortAddr).toList
    some ({ area with array, extNeighborUsed := k + 1 }, .ok k)

def zbNwkExneighborByShort (area : NeighborArea layout) (panidRef shortAddr : ℕ) :
    Option (NeighborArea layout × Except RetError ℕ) :=
  match (List.range area.extNeighborUsed).find? fun k =>
      layout.isFor (window area.array (area.extByte k) layout.extEntSize)
        panidRef shortAddr with
  | some k => some (area, .ok k)
  | none => area.allocNewExtneiboard panidRef shortAddr

def step (area : NeighborArea layout) (device : ℕ × ℕ) :
    Option (NeighborArea layout) :=
  (area.zbNwkExneighborByShort device.1 device.2).map Prod.fst

def start (array : Vector UInt8 (neighborTableSize * layout.baseEntSize))
    (baseNeighborUsed : ℕ) : NeighborArea layout where
  array
  split := splitBaseNeighbor layout neighborTableSize baseNeighborUsed
  extNeighborUsed := 0

end NeighborArea

/-- The extended table begins behind the rows which stay, ends inside the
array, and no sequence of allocations changes one of these rows. -/
structure SplitSound (layout : EntryLayout) (split : MemorySplit) : Prop where
  behind : split.baseNeighborSize * layout.baseEntSize ≤ split.off.toNat
  inside : split.off.toNat + split.extNeighborSize * layout.extEntSize ≤
    neighborTableSize * layout.baseEntSize
  kept : ∀ array (devices : List (ℕ × ℕ)), ∃ area,
    run NeighborArea.step (⟨array, split, 0⟩ : NeighborArea layout) devices = some area ∧
      ∀ n, n < split.baseNeighborSize → area.row n = NeighborArea.row ⟨array, split, 0⟩ n

section Split

variable {layout : EntryLayout} {split : MemorySplit}

/-- What allocations preserve: the entries lie inside the part which was cut,
and the rows before it are as in `array`. -/
structure AreaKept (array : Vector UInt8 (neighborTableSize * layout.baseEntSize))
    (split : MemorySplit) (area : NeighborArea layout) : Prop where
  split_eq : area.split = split
  used : area.extNeighborUsed ≤ split.extNeighborSize
  rows : ∀ n, n < split.baseNeighborSize →
    area.row n = NeighborArea.row ⟨array, split, 0⟩ n

section

variable (hbehind : split.baseNeighborSize * layout.baseEntSize ≤ split.off.toNat)
  (hinside : split.off.toNat + split.extNeighborSize * layout.extEntSize ≤
    neighborTableSize * layout.baseEntSize)

include hbehind hinside

theorem AreaKept.alloc {array : Vector UInt8 (neighborTableSize * layout.baseEntSize)}
    {area : NeighborArea layout}
    (hkept : AreaKept array split area) (panidRef shortAddr : ℕ) :
    ∃ area' ret, area.allocNewExtneiboard panidRef shortAddr = some (area', ret) ∧
      AreaKept array split area' := by
  obtain ⟨hsplit, hused, hrows⟩ := hkept
  unfold NeighborArea.allocNewExtneiboard
  by_cases hfull : area.extNeighborUsed = area.split.extNeighborSize
  · exact ⟨area, .error .noMemory, by simp [hfull], hsplit, hused, hrows⟩
  · have hlt : area.extNeighborUsed + 1 ≤ split.extNeighborSize := by
      rw [hsplit] at hfull
      omega
    have hend : area.extByte area.extNeighborUsed + layout.extEntSize ≤
        split.off.toNat + split.extNeighborSize * layout.extEntSize := by
      have hmul := Nat.mul_le_mul_right layout.extEntSize hlt
      rw [NeighborArea.extByte, hsplit]
      rw [Nat.succ_mul] at hmul
      omega
    have hlength : (layout.newEnt panidRef shortAddr).toList.length =
        layout.extEntSize := by simp
    have hroom : area.extByte area.extNeighborUsed +
        (layout.newEnt panidRef shortAddr).toList.length ≤
          neighborTableSize * layout.baseEntSize := by
      rw [hlength]
      omega
    obtain ⟨array', hstore⟩ : ∃ array', store area.array
        (area.extByte area.extNeighborUsed)
        (layout.newEnt panidRef shortAddr).toList = some array' :=
      store_of_le hroom
    refine
      ⟨{ area with
          array := array'
          extNeighborUsed := area.extNeighborUsed + 1 },
        .ok area.extNeighborUsed, ?_, ?_⟩
    · simp only [hfull, if_false, hstore]
      rfl
    refine ⟨hsplit, hlt, ?_⟩
    intro n hn
    rw [← hrows n hn]
    apply window_store_disjoint hstore
    left
    have hmul := Nat.mul_le_mul_right layout.baseEntSize (Nat.succ_le_of_lt hn)
    rw [Nat.succ_mul] at hmul
    rw [NeighborArea.extByte, hsplit]
    omega

theorem splitSound_of_range :
    SplitSound layout split := by
  refine ⟨hbehind, hinside, ?_⟩
  intro array devices
  have hstep : ∀ (area : NeighborArea layout) (device : ℕ × ℕ), AreaKept array split area →
        ∃ next, area.step device = some next ∧ AreaKept array split next := by
    intro area device hkept
    unfold NeighborArea.step NeighborArea.zbNwkExneighborByShort
    split
    · exact ⟨area, rfl, hkept⟩
    · obtain ⟨next, ret, halloc, hnext⟩ :=
        hkept.alloc hbehind hinside device.1 device.2
      exact ⟨next, by rw [halloc]; rfl, hnext⟩
  have hstart : AreaKept array split ⟨array, split, 0⟩ :=
    ⟨rfl, Nat.zero_le _, fun _ _ => rfl⟩
  obtain ⟨area, harea, hkept⟩ := exists_run_of_invariant hstep hstart devices
  exact ⟨area, harea, hkept.rows⟩

end

end Split

theorem roundTo4_mono {m n : ℕ} (hmn : m ≤ n) : roundTo4 m ≤ roundTo4 n := by
  unfold roundTo4
  omega

theorem roundTo4_le_table {m : ℕ} (layout : EntryLayout)
    (hm : m ≤ neighborTableSize * layout.baseEntSize) :
    roundTo4 m ≤ neighborTableSize * layout.baseEntSize := by
  have hmono := roundTo4_mono hm
  have hround : roundTo4 (neighborTableSize * layout.baseEntSize) =
      neighborTableSize * layout.baseEntSize := by
    rw [roundTo4, neighborTableSize]
    omega
  rwa [hround] at hmono

section Bytes

variable {layout : EntryLayout} {baseNeighborUsed : ℕ}

def keptBaseRows (baseNeighborUsed : ℕ) : ℕ :=
  max (neighborTableSize / 2) baseNeighborUsed

theorem toNat_rowsToCut (hused : baseNeighborUsed ≤ neighborTableSize) :
    (rowsToCut neighborTableSize baseNeighborUsed).toNat =
      neighborTableSize - keptBaseRows baseNeighborUsed := by
  have hhalf : (UInt8.ofNat (neighborTableSize / 2)).toNat = 16 := rfl
  rw [rowsToCut, keptBaseRows, hhalf]
  split
  · rw [UInt8.toNat_ofNat', neighborTableSize] at *
    rw [Nat.mod_eq_of_lt (by omega)]
    omega
  · rw [hhalf, neighborTableSize] at *
    omega

theorem splitBaseNeighbor_eq (layout : EntryLayout)
    (hused : baseNeighborUsed ≤ neighborTableSize) :
    splitBaseNeighbor layout neighborTableSize baseNeighborUsed =
      { baseNeighborSize := keptBaseRows baseNeighborUsed
        off := UInt8.ofNat (roundTo4 (keptBaseRows baseNeighborUsed * layout.baseEntSize))
        extNeighborSize :=
          (UInt8.ofNat ((neighborTableSize - keptBaseRows baseNeighborUsed) *
              layout.baseEntSize) -
            (UInt8.ofNat (roundTo4 (keptBaseRows baseNeighborUsed * layout.baseEntSize)) -
              UInt8.ofNat (keptBaseRows baseNeighborUsed * layout.baseEntSize))).toNat /
            layout.extEntSize } := by
  have hkept : neighborTableSize - (neighborTableSize - keptBaseRows baseNeighborUsed) =
        keptBaseRows baseNeighborUsed := by
    rw [keptBaseRows, neighborTableSize] at *
    omega
  simp only [splitBaseNeighbor, toNat_rowsToCut hused, hkept]

theorem toNat_cutBytes {cut kept off : ℕ} (hoff : off ≤ cut + kept) (hbyte : off < 2 ^ 8) :
    (UInt8.ofNat cut - (UInt8.ofNat off - UInt8.ofNat kept)).toNat =
      (cut + kept - off) % 2 ^ 8 := by
  rw [UInt8.toNat_sub, UInt8.toNat_sub, UInt8.toNat_ofNat',
    UInt8.toNat_ofNat', UInt8.toNat_ofNat']
  omega

/-- The memory is split soundly exactly if the offset of the extended table
fits into its byte. -/
theorem splitSound_iff (layout : EntryLayout) (baseNeighborUsed : ℕ)
    (hused : baseNeighborUsed ≤ neighborTableSize) :
    SplitSound layout (splitBaseNeighbor layout neighborTableSize baseNeighborUsed) ↔
      roundTo4 (max (neighborTableSize / 2) baseNeighborUsed *
        layout.baseEntSize) < 2 ^ 8 := by
  rw [splitBaseNeighbor_eq layout hused, ← keptBaseRows]
  have hkept : keptBaseRows baseNeighborUsed ≤ neighborTableSize := by
    rw [keptBaseRows, neighborTableSize] at *
    omega
  have htable := Nat.mul_le_mul_right layout.baseEntSize hkept
  have hround := roundTo4_le_table layout htable
  have hsum : (neighborTableSize - keptBaseRows baseNeighborUsed) * layout.baseEntSize +
        keptBaseRows baseNeighborUsed * layout.baseEntSize =
      neighborTableSize * layout.baseEntSize := by
    rw [← Nat.add_mul, Nat.sub_add_cancel hkept]
  generalize hbytes : keptBaseRows baseNeighborUsed * layout.baseEntSize = bytes
    at htable hround hsum ⊢
  constructor
  · intro hsound
    have hbehind := hsound.behind
    dsimp only at hbehind
    rw [hbytes, UInt8.toNat_ofNat', roundTo4] at hbehind
    rw [roundTo4]
    omega
  · intro hbyte
    have hoff : (UInt8.ofNat (roundTo4 bytes)).toNat = roundTo4 bytes := by
      rw [UInt8.toNat_ofNat', Nat.mod_eq_of_lt hbyte]
    apply splitSound_of_range
    · dsimp only
      rw [hbytes, hoff, roundTo4]
      omega
    · dsimp only
      rw [hoff, toNat_cutBytes (by omega) hbyte, hsum]
      have hsize := Nat.div_mul_le_self
        ((neighborTableSize * layout.baseEntSize - roundTo4 bytes) % 2 ^ 8)
        layout.extEntSize
      have hmod := Nat.mod_le
        (neighborTableSize * layout.baseEntSize - roundTo4 bytes) (2 ^ 8)
      omega

end Bytes

/-- The entries as a compiler for a 32-bit target packs them; the reference of
the PAN id is in the upper three bits of a byte. -/
def packedLayout : EntryLayout where
  baseEntSize := neighborTblEntSize
  extEntSize := extNeighborTblEntSize
  newEnt panidRef shortAddr :=
    #v[.ofNat shortAddr, .ofNat (shortAddr / 2 ^ 8), 0, 0, 0, 0, 0, 0, 0, 0,
      .ofNat (panidRef * 2 ^ 5), 0, 0, 0]
  isFor bytes panidRef shortAddr :=
    bytes[0]? == some (.ofNat shortAddr) &&
      bytes[1]? == some (.ofNat (shortAddr / 2 ^ 8)) &&
      bytes[10]?.map (· >>> (5 : UInt8)) == some (UInt8.ofNat panidRef)

/-- With nineteen of the rows in use the offset is 248. -/
theorem splitSound_nineteenRows : SplitSound packedLayout
      (splitBaseNeighbor packedLayout neighborTableSize 19) :=
  (splitSound_iff packedLayout 19 (by decide)).mpr (by decide)

/-- With twenty rows in use the offset is 4, and the first device which is heard
is written over the row 0. -/
theorem not_splitSound_twentyRows : ¬ SplitSound packedLayout
        (splitBaseNeighbor packedLayout neighborTableSize 20) ∧
      ∃ array, ∃ area : NeighborArea packedLayout,
        (NeighborArea.start array 20).step (0, 5) = some area ∧
          area.row 0 ≠ (NeighborArea.start array 20).row 0 := by
  constructor
  · intro hsound
    exact absurd hsound.behind (by decide)
  · refine ⟨Vector.replicate _ 0xFF, ?_⟩
    have hresult : ((@NeighborArea.start packedLayout
              (Vector.replicate _ 0xFF) 20).step (0, 5)).map
            (fun area => decide (area.row 0 = (@NeighborArea.start packedLayout
                (Vector.replicate _ 0xFF) 20).row 0)) = some false := by
      decide +kernel
    obtain ⟨area, hstep, hrow⟩ := Option.map_eq_some_iff.mp hresult
    exact ⟨area, hstep, of_decide_eq_false hrow⟩

end Zboss
