import Zboss.ZdpRequests
import Mathlib.Algebra.BigOperators.Group.Finset.Basic
import Mathlib.Data.Nat.Count

/-!
# The accesses of the requests with cluster lists

Nothing compares the counts of a request with its length.  The handlers stay
inside the frame and their tables for exactly the requests whose lists fit.
-/

namespace Zboss

open List

/-! ## Match descriptor requests -/

section Copy

variable {mem : ℤ → UInt8} {dst src address : ℤ} {num : ℕ}

/-- By induction on the clusters which are copied. -/
theorem read_mem_copyClusterId_iff : .read address ∈ (copyClusterId mem dst src num).2 ↔
      src ≤ address ∧ address < src + 2 * num := by
  induction num generalizing mem dst src with
  | zero =>
    rw [copyClusterId]
    refine iff_of_false not_mem_nil ?_
    omega
  | succ num ih =>
    rw [copyClusterId]
    dsimp only
    rw [mem_append, ih, zbHtole16]
    simp only [mem_cons, BufAccess.read.injEq, reduceCtorEq, false_or,
      not_mem_nil, or_false]
    push_cast
    omega

theorem write_mem_copyClusterId_iff : .write address ∈ (copyClusterId mem dst src num).2 ↔
      dst ≤ address ∧ address < dst + 2 * num := by
  induction num generalizing mem dst src with
  | zero =>
    rw [copyClusterId]
    refine iff_of_false not_mem_nil ?_
    omega
  | succ num ih =>
    rw [copyClusterId]
    dsimp only
    rw [mem_append, ih, zbHtole16]
    simp only [mem_cons, BufAccess.write.injEq, reduceCtorEq, false_or,
      not_mem_nil, or_false]
    push_cast
    omega

end Copy

namespace EpList

variable {eps : EpList}

theorem shift_written (eps : EpList) (index count : ℕ) :
    ∀ place ∈ (eps.shift index count).written,
      place ∈ eps.written ∨ place ≤ index + count := by
  induction count generalizing eps with
  | zero => exact fun place hmem => .inl hmem
  | succ count ih =>
    intro place hmem
    obtain hmem | hle := ih _ place hmem
    · obtain hmem | hmem := mem_append.mp hmem
      · exact .inl hmem
      · right
        rw [mem_singleton.mp hmem]
        rfl
    · exact .inr (hle.trans (Nat.le_succ _))

theorem addEpSorted_written (eps : EpList) (endpoint : UInt8) :
    (eps.addEpSorted endpoint).epNum ≤ eps.epNum + 1 ∧
      ∀ place ∈ (eps.addEpSorted endpoint).written,
        place ∈ eps.written ∨ place ≤ eps.epNum := by
  have hindex : ((List.range eps.epNum).find? fun i =>
      endpoint ≤ eps.epList i).getD eps.epNum ≤ eps.epNum := by
    cases hfind : (List.range eps.epNum).find? fun i =>
      decide (endpoint ≤ eps.epList i) with
    | none => exact Nat.le_refl _
    | some index => exact (mem_range.mp (mem_of_find?_eq_some hfind)).le
  rw [addEpSorted]
  dsimp only
  split
  · refine ⟨Nat.le_refl _, fun place hmem => ?_⟩
    obtain hmem | hmem := mem_append.mp hmem
    · obtain hmem | hle := shift_written _ _ _ place hmem
      · exact .inl hmem
      · refine .inr (hle.trans ?_)
        rw [Nat.add_sub_cancel' hindex]
    · right
      rw [mem_singleton.mp hmem]
      exact hindex
  · exact ⟨Nat.le_succ _, fun place hmem => .inl hmem⟩

/-- By induction on the descriptors, each of which adds one endpoint at most. -/
theorem foldl_written (offers : SimpleDesc → Bool) (descs : List SimpleDesc) (eps : EpList)
    (hwritten : ∀ place ∈ eps.written, place < maxEpNumber)
    (hnum : eps.epNum + descs.length ≤ maxEpNumber) :
    ∀ place ∈ (descs.foldl (fun eps desc =>
        if offers desc then eps.addEpSorted desc.endpoint else eps)
        eps).written, place < maxEpNumber := by
  induction descs generalizing eps with
  | nil => exact hwritten
  | cons desc rest ih =>
    rw [length_cons] at hnum
    rw [foldl_cons]
    split
    · obtain ⟨hgrown, hplaces⟩ := eps.addEpSorted_written desc.endpoint
      refine ih _ (fun place hmem => ?_) (by omega)
      obtain hmem | hle := hplaces place hmem
      · exact hwritten place hmem
      · omega
    · exact ih eps hwritten (by omega)

end EpList

/-- The bytes of the frame are the only ones which are read, the copy lies in
the array of the buffer and apart from the bytes which are read for it, and
`ep_list` is long enough. -/
structure MatchDescRun.Inside (run : MatchDescRun) (frame : ZdpFrame) : Prop where
  reads : ∀ address : ℤ, .read address ∈ run.header ++ run.lists →
    frame.dataOffset ≤ address ∧ address < frame.dataOffset + frame.len
  inBuffer : ∀ address : ℤ, .write address ∈ run.lists → 0 ≤ address ∧ address < ioBufSize
  apart : ∀ address : ℤ, .write address ∈ run.lists → .read address ∉ run.lists
  eps : ∀ place ∈ run.eps.written, place < maxEpNumber

namespace ZdpFrame

def matchNumIn (frame : ZdpFrame) : ℕ := (frame.byte 5).toNat

def matchNumOut (frame : ZdpFrame) : ℕ :=
  (frame.byte (6 + 2 * frame.matchNumIn)).toNat

/-- There are no output clusters, the list of input clusters lies in the frame,
and there is room for it once more between the last cluster and the end of the
array. -/
def FitsMatchDesc (frame : ZdpFrame) : Prop :=
  frame.matchNumOut = 0 ∧ 7 + 2 * frame.matchNumIn ≤ frame.len ∧ (frame.matchNumIn = 0 ∨
      frame.dataOffset + 4 * frame.matchNumIn + 6 ≤ ioBufSize)

end ZdpFrame

section MatchDesc

variable {shortAddress : ℕ} {descs : SimpleDescList} {stack : ℕ → UInt8}
  {frame : ZdpFrame} {address : ℤ}

def ZdpFrame.matchTail (frame : ZdpFrame) : ℤ :=
  ioBufSize - ↑((frame.matchNumIn + frame.matchNumOut) * 2 % 256)

theorem read_mem_header_iff :
    .read address ∈ (zdoMatchDescRes shortAddress descs stack frame).header ↔
      (frame.dataOffset ≤ address ∧ address < frame.dataOffset + 6) ∨
        address = frame.dataOffset + 6 + 2 * frame.matchNumIn := by
  have hheader : (zdoMatchDescRes shortAddress descs stack frame).header =
      (List.range 6 ++ [6 + 2 * frame.matchNumIn]).map fun index =>
        .read (frame.dataOffset + index) := rfl
  rw [hheader, mem_map]
  constructor
  · rintro ⟨index, hmem, heq⟩
    obtain ⟨rfl⟩ := heq
    obtain hmem | hmem := mem_append.mp hmem
    · have hlt := mem_range.mp hmem
      omega
    · rw [mem_singleton.mp hmem]
      push_cast
      omega
  · rintro (hbefore | rfl)
    · refine ⟨(address - frame.dataOffset).toNat, ?_, ?_⟩
      · refine mem_append_left _ (mem_range.mpr ?_)
        omega
      · rw [BufAccess.read.injEq]
        omega
    · refine ⟨6 + 2 * frame.matchNumIn, mem_append_right _ mem_cons_self, ?_⟩
      rw [BufAccess.read.injEq]
      push_cast
      omega

theorem lists_eq : ∃ mem, (zdoMatchDescRes shortAddress descs stack frame).lists =
      (copyClusterId frame.mem frame.matchTail (frame.dataOffset + 6)
        frame.matchNumIn).2 ++
      (copyClusterId mem (frame.matchTail + 2 * frame.matchNumIn)
        (frame.matchTail + 2 * frame.matchNumIn + 1) frame.matchNumOut).2 :=
  ⟨_, rfl⟩

theorem read_mem_lists_iff :
    .read address ∈ (zdoMatchDescRes shortAddress descs stack frame).lists ↔
      (frame.dataOffset + 6 ≤ address ∧
        address < frame.dataOffset + 6 + 2 * frame.matchNumIn) ∨
      (frame.matchTail + 2 * frame.matchNumIn + 1 ≤ address ∧
        address < frame.matchTail + 2 * frame.matchNumIn + 1 +
          2 * frame.matchNumOut) := by
  obtain ⟨mem, hlists⟩ := @lists_eq shortAddress descs stack frame
  rw [hlists, mem_append, read_mem_copyClusterId_iff, read_mem_copyClusterId_iff]

theorem write_mem_lists_iff :
    .write address ∈ (zdoMatchDescRes shortAddress descs stack frame).lists ↔
      frame.matchTail ≤ address ∧ address < frame.matchTail +
        2 * (frame.matchNumIn + frame.matchNumOut) := by
  obtain ⟨mem, hlists⟩ := @lists_eq shortAddress descs stack frame
  rw [hlists, mem_append, write_mem_copyClusterId_iff, write_mem_copyClusterId_iff]
  omega

theorem eps_written :
    ∀ place ∈ (zdoMatchDescRes shortAddress descs stack frame).eps.written,
      place < maxEpNumber := by
  rw [zdoMatchDescRes]
  dsimp only
  split
  · exact fun place hmem => nomatch hmem
  · refine EpList.foldl_written _ descs.list _ (fun _ hmem => nomatch hmem) ?_
    exact (Nat.zero_add _).trans_le descs.length_le

theorem inside_zdoMatchDescRes_iff :
    (zdoMatchDescRes shortAddress descs stack frame).Inside frame ↔
      frame.FitsMatchDesc := by
  have hfits := frame.fits
  have hsize : ioBufSize = 148 := rfl
  have htail : frame.matchTail =
      148 - ↑((frame.matchNumIn + frame.matchNumOut) * 2 % 256) := rfl
  constructor
  · rintro ⟨hreads, -, hapart, -⟩
    have hcount := hreads (frame.dataOffset + 6 + 2 * frame.matchNumIn)
      (mem_append_left _ (read_mem_header_iff.mpr (.inr rfl)))
    -- the copy of the output clusters comes to the end of the array
    have hout : frame.matchNumOut = 0 := by
      by_contra hout
      have hend := hreads (frame.matchTail + 2 * (frame.matchNumIn + frame.matchNumOut))
        (mem_append_right _ (read_mem_lists_iff.mpr (.inr (by omega))))
      omega
    rw [hout, add_zero, Nat.mod_eq_of_lt (by omega)] at htail
    refine ⟨hout, by omega, ?_⟩
    by_cases hnone : frame.matchNumIn = 0
    · exact .inl hnone
    · right
      by_contra hroom
      refine hapart (frame.dataOffset + 5 + 2 * frame.matchNumIn) ?_ ?_
      · exact write_mem_lists_iff.mpr (by omega)
      · exact read_mem_lists_iff.mpr (.inl (by omega))
  · rintro ⟨hout, hlen, hroom⟩
    rw [hout, add_zero, Nat.mod_eq_of_lt (by omega)] at htail
    refine ⟨fun address hmem => ?_, fun address hmem => ?_,
      fun address hwrite hread => ?_, eps_written⟩
    · obtain hmem | hmem := mem_append.mp hmem
      · rw [read_mem_header_iff] at hmem
        omega
      · rw [read_mem_lists_iff] at hmem
        omega
    · rw [write_mem_lists_iff] at hmem
      omega
    · rw [write_mem_lists_iff] at hwrite
      rw [read_mem_lists_iff] at hread
      omega

end MatchDesc

/-! ## End device bind requests -/

namespace ClusterList

variable {device : BindDev} {list1 list2 : ClusterList} {holds : BindAccess → Prop}

/-- How many of the first `j` clusters of the second list are cluster `i` of the
first. -/
def matchesBefore (list1 list2 : ClusterList) (i j : ℕ) : ℕ :=
  Nat.count (fun k => list1.cluster i = list2.cluster k) j

def matchesAbove (list1 list2 : ClusterList) (i : ℕ) : ℕ :=
  ∑ k ∈ Finset.range i, list1.matchesBefore list2 k list2.num

def Compared (holds : BindAccess → Prop) (list1 list2 : ClusterList) (i j : ℕ) : Prop :=
  ∀ access ∈ list1.reads i ++ list2.reads j, holds access

theorem matchesBefore_le {i j k : ℕ} (hle : j ≤ k) :
    list1.matchesBefore list2 i j ≤ list1.matchesBefore list2 i k :=
  Nat.count_monotone _ hle

theorem checkClusterRow_room {i base : ℕ}
    (hstore : ∀ place cluster, place < zdoMaxClusterList →
      holds (.store device place cluster))
    (rest j : ℕ)
    (hroom : base + list1.matchesBefore list2 i j < zdoMaxClusterList) :
    (checkClusterRow device list1 list2 i rest j
        (base + list1.matchesBefore list2 i j)).1 =
      min (base + list1.matchesBefore list2 i (j + rest)) zdoMaxClusterList ∧
    ((∀ access ∈ (checkClusterRow device list1 list2 i rest j
        (base + list1.matchesBefore list2 i j)).2, holds access) ↔
      ∀ k, j ≤ k → k < j + rest →
        base + list1.matchesBefore list2 i k < zdoMaxClusterList →
          Compared holds list1 list2 i k) := by
  induction rest generalizing j with
  | zero =>
    rw [checkClusterRow]
    refine ⟨(min_eq_left hroom.le).symm, ?_⟩
    refine iff_of_true (fun access hmem => nomatch hmem) ?_
    intro k hle hlt
    omega
  | succ rest ih =>
    have hmax : zdoMaxClusterList = 15 := rfl
    have hshift : j + (rest + 1) = j + 1 + rest := by omega
    have hsplit (p : ℕ → Prop) : (∀ k, j ≤ k → k < j + (rest + 1) → p k) ↔
        p j ∧ ∀ k, j + 1 ≤ k → k < j + 1 + rest → p k := by
      constructor
      · intro hall
        exact ⟨hall j (Nat.le_refl j) (by omega),
          fun k hle hlt => hall k (by omega) (by omega)⟩
      · rintro ⟨hfirst, hall⟩ k hle hlt
        obtain rfl | hne := eq_or_ne k j
        · exact hfirst
        · exact hall k (by omega) (by omega)
    rw [hsplit, forall_prop_of_true hroom]
    have hcount : list1.matchesBefore list2 i (j + 1) = list1.matchesBefore list2 i j +
          if list1.cluster i = list2.cluster j then 1 else 0 :=
      Nat.count_succ _ _
    rw [checkClusterRow]
    dsimp only
    by_cases hmatch : list1.cluster i = list2.cluster j
    · rw [if_pos hmatch] at hcount
      have hmod : (base + list1.matchesBefore list2 i j + 1) % 256 =
          base + list1.matchesBefore list2 i (j + 1) := by
        rw [hcount]
        omega
      rw [if_pos hmatch, hmod]
      have hplace := hstore _ (list1.cluster i) hroom
      have hhead : (∀ access ∈ list1.reads i ++ list2.reads j ++
          list1.reads i ++ [BindAccess.store device
            (base + list1.matchesBefore list2 i j) (list1.cluster i)],
          holds access) ↔ Compared holds list1 list2 i j := by
        rw [Compared]
        simp only [forall_mem_append, forall_mem_singleton]
        constructor
        · exact fun hall => hall.1.1
        · exact fun hall => ⟨⟨hall, hall.1⟩, hplace⟩
      by_cases hfull : zdoMaxClusterList ≤ base + list1.matchesBefore list2 i (j + 1)
      · rw [if_pos hfull]
        have hlater {k : ℕ} (hle : j + 1 ≤ k) : zdoMaxClusterList ≤
            base + list1.matchesBefore list2 i k :=
          hfull.trans (Nat.add_le_add_left (matchesBefore_le hle) base)
        refine ⟨?_, hhead.trans ?_⟩
        · rw [hshift, min_eq_right (hlater (Nat.le_add_right _ _))]
          dsimp only
          omega
        · refine (and_iff_left ?_).symm
          intro k hle _ hlt
          exact absurd (hlater hle) (not_le_of_gt hlt)
      · rw [if_neg hfull]
        obtain ⟨hend, hall⟩ := ih (j + 1) (not_le.mp hfull)
        dsimp only
        rw [hshift, hend, forall_mem_append, hhead, hall]
        exact ⟨rfl, Iff.rfl⟩
    · rw [if_neg hmatch] at hcount
      rw [if_neg hmatch]
      have hsame : list1.matchesBefore list2 i (j + 1) =
          list1.matchesBefore list2 i j := hcount
      obtain ⟨hend, hall⟩ := ih (j + 1) (hsame ▸ hroom)
      rw [hsame] at hend hall
      dsimp only
      rw [hshift, hend, forall_mem_append, hall]
      exact ⟨rfl, Iff.rfl⟩

theorem checkClusterRow_full {i : ℕ}
    (hstore : ∀ cluster, ¬ holds (.store device zdoMaxClusterList cluster))
    (rest j : ℕ) :
    ((∀ access ∈ (checkClusterRow device list1 list2 i rest j
        zdoMaxClusterList).2, holds access) ↔
      ∀ k, j ≤ k → k < j + rest → list1.cluster i ≠ list2.cluster k ∧
        Compared holds list1 list2 i k) ∧
    ((∀ k, j ≤ k → k < j + rest → list1.cluster i ≠ list2.cluster k) →
      (checkClusterRow device list1 list2 i rest j zdoMaxClusterList).1 =
        zdoMaxClusterList) := by
  induction rest generalizing j with
  | zero =>
    rw [checkClusterRow]
    refine ⟨iff_of_true (fun access hmem => nomatch hmem) ?_, fun _ => rfl⟩
    intro k hle hlt
    omega
  | succ rest ih =>
    obtain ⟨hall, hend⟩ := ih (j + 1)
    rw [checkClusterRow]
    dsimp only
    by_cases hmatch : list1.cluster i = list2.cluster j
    · rw [if_pos hmatch]
      have hover : ¬ (∀ k, j ≤ k → k < j + (rest + 1) →
          list1.cluster i ≠ list2.cluster k) :=
        fun hnone => hnone j (Nat.le_refl j) (by omega) hmatch
      have hplace : ∀ accesses : List BindAccess,
          .store device zdoMaxClusterList (list1.cluster i) ∈ accesses →
          ¬ ∀ access ∈ accesses, holds access :=
        fun accesses hmem hholds => hstore _ (hholds _ hmem)
      refine ⟨iff_of_false (hplace _ ?_) ?_, fun hnone => absurd hnone hover⟩
      · rw [if_pos (by decide)]
        exact mem_append_right _ mem_cons_self
      · exact fun hfits => hover fun k hle hlt => (hfits k hle hlt).1
    · rw [if_neg hmatch]
      dsimp only
      rw [forall_mem_append, hall]
      refine ⟨⟨?_, ?_⟩, fun hnone => hend fun k hle hlt => hnone k (by omega) (by omega)⟩
      · rintro ⟨hfirst, hlater⟩ k hle hlt
        obtain rfl | hne := eq_or_ne k j
        · exact ⟨hmatch, hfirst⟩
        · exact hlater k (by omega) (by omega)
      · intro hfits
        exact ⟨(hfits j (Nat.le_refl j) (by omega)).2,
          fun k hle hlt => hfits k (by omega) (by omega)⟩

/-- Cluster `i` of the first list: what is compared with it may be read, and it
has no match when `cluster_list` is full. -/
structure RowFits (holds : BindAccess → Prop) (list1 list2 : ClusterList) (i : ℕ) :
    Prop where
  compared : ∀ j < list2.num, zdoMaxClusterList ≤ list1.matchesAbove list2 i ∨
      list1.matchesAbove list2 i + list1.matchesBefore list2 i j < zdoMaxClusterList →
    Compared holds list1 list2 i j
  room : zdoMaxClusterList ≤ list1.matchesAbove list2 i →
    ∀ j < list2.num, list1.cluster i ≠ list2.cluster j

theorem checkClusterRow_iff {i : ℕ}
    (hstore : ∀ place cluster, holds (.store device place cluster) ↔
      place < zdoMaxClusterList) :
    ((∀ access ∈ (checkClusterRow device list1 list2 i list2.num 0
        (min (list1.matchesAbove list2 i) zdoMaxClusterList)).2, holds access) ↔
      RowFits holds list1 list2 i) ∧
    (RowFits holds list1 list2 i → (checkClusterRow device list1 list2 i list2.num 0
        (min (list1.matchesAbove list2 i) zdoMaxClusterList)).1 =
      min (list1.matchesAbove list2 (i + 1)) zdoMaxClusterList) := by
  have hnext : list1.matchesAbove list2 (i + 1) =
      list1.matchesAbove list2 i + list1.matchesBefore list2 i list2.num :=
    Finset.sum_range_succ _ _
  by_cases hfull : zdoMaxClusterList ≤ list1.matchesAbove list2 i
  · obtain ⟨hall, hend⟩ := @checkClusterRow_full device list1 list2 holds i
      (fun cluster hholds =>
        lt_irrefl _ ((hstore zdoMaxClusterList cluster).mp hholds)) list2.num 0
    rw [min_eq_right hfull, hall,
      min_eq_right (hfull.trans (hnext ▸ Nat.le_add_right _ _))]
    refine ⟨⟨fun hfits => ⟨?_, ?_⟩, fun hfits k _ hlt => ?_⟩, fun hfits => ?_⟩
    · intro j hlt _
      exact (hfits j (Nat.zero_le j) (by omega)).2
    · intro _ j hlt
      exact (hfits j (Nat.zero_le j) (by omega)).1
    · rw [Nat.zero_add] at hlt
      exact ⟨hfits.room hfull k hlt, hfits.compared k hlt (.inl hfull)⟩
    · refine hend fun k _ hlt => hfits.room hfull k ?_
      rwa [Nat.zero_add] at hlt
  · have hnone : list1.matchesBefore list2 i 0 = 0 := Nat.count_zero _
    obtain ⟨hend, hall⟩ := @checkClusterRow_room device list1 list2 holds i
      (list1.matchesAbove list2 i)
      (fun place cluster hlt => (hstore place cluster).mpr hlt) list2.num 0
      (by rw [hnone]; exact not_le.mp hfull)
    rw [hnone, Nat.add_zero, Nat.zero_add] at hend hall
    rw [min_eq_left (not_le.mp hfull).le, hall, hend, hnext]
    refine ⟨⟨fun hfits => ⟨?_, ?_⟩, fun hfits k _ hlt hroom => ?_⟩, fun _ => rfl⟩
    · rintro j hlt (hover | hroom)
      · exact absurd hover hfull
      · exact hfits j (Nat.zero_le j) hlt hroom
    · exact fun hover => absurd hover hfull
    · exact hfits.compared k hlt (.inr hroom)

/-- By induction on the rows; up to the first which does not fit `cluster_num`
counts the matches. -/
theorem checkClusterRows_iff
    (hstore : ∀ place cluster, holds (.store device place cluster) ↔
      place < zdoMaxClusterList) (rest i : ℕ) :
    (∀ access ∈ (checkClusterRows device list1 list2 rest i
        (min (list1.matchesAbove list2 i) zdoMaxClusterList)).2, holds access) ↔
      ∀ k, i ≤ k → k < i + rest → RowFits holds list1 list2 k := by
  induction rest generalizing i with
  | zero =>
    rw [checkClusterRows]
    refine iff_of_true (fun access hmem => nomatch hmem) ?_
    intro k hle hlt
    omega
  | succ rest ih =>
    obtain ⟨hall, hend⟩ := @checkClusterRow_iff device list1 list2 holds i hstore
    rw [checkClusterRows]
    dsimp only
    rw [forall_mem_append, hall]
    constructor
    · rintro ⟨hfirst, hlater⟩ k hle hlt
      rw [hend hfirst, ih (i + 1)] at hlater
      obtain rfl | hne := eq_or_ne k i
      · exact hfirst
      · exact hlater k (by omega) (by omega)
    · intro hfits
      have hfirst := hfits i (Nat.le_refl i) (by omega)
      rw [hend hfirst, ih (i + 1)]
      exact ⟨hfirst, fun k hle hlt => hfits k (by omega) (by omega)⟩

theorem checkClusterList_iff
    (hstore : ∀ place cluster, holds (.store device place cluster) ↔
      place < zdoMaxClusterList) :
    (∀ access ∈ (checkClusterList device list1 list2).2, holds access) ↔
      ∀ i < list1.num, RowFits holds list1 list2 i := by
  have hstart : min (list1.matchesAbove list2 0) zdoMaxClusterList = 0 := rfl
  have hrows := @checkClusterRows_iff device list1 list2 holds hstore list1.num 0
  rw [hstart] at hrows
  refine hrows.trans ⟨fun hall i hlt => ?_, fun hall i _ hlt => ?_⟩
  · exact hall i (Nat.zero_le i) (by omega)
  · exact hall i (by omega)

end ClusterList

def BindAccess.Inside (len : BindDev → ℕ) : BindAccess → Prop
  | .read device index => index < len device
  | .store _ index _ => index < zdoMaxClusterList

def bindLen (first : Option ZdpFrame) (frame : ZdpFrame) : BindDev → ℕ
  | .dev1 => (first.map ZdpFrame.len).getD 0
  | .dev2 => frame.len

/-- Two lists which `check_cluster_list` compares: the clusters it comes to lie
in their frames, and a cluster which is found when `cluster_list` is full has
no match. -/
structure ClusterList.Fits (list1 list2 : ClusterList) : Prop where
  compared : ∀ i < list1.num, ∀ j < list2.num,
    zdoMaxClusterList ≤ list1.matchesAbove list2 i ∨
      list1.matchesAbove list2 i + list1.matchesBefore list2 i j < zdoMaxClusterList →
    list1.start + 2 * i + 2 ≤ list1.frame.len ∧ list2.start + 2 * j + 2 ≤ list2.frame.len
  room : ∀ i < list1.num, zdoMaxClusterList ≤ list1.matchesAbove list2 i →
      ∀ j < list2.num, list1.cluster i ≠ list2.cluster j

/-- The request is long enough for `src_endp`; if it is compared with the one
which waits, both have a profile, and with one profile both have their counts
and lists which fit. -/
def FitsEndDeviceBind (first : Option ZdpFrame) (busy : Bool) (frame : ZdpFrame) : Prop :=
  11 < frame.len ∧ (frame.validEndp = true → busy = false → ∀ other ∈ first,
      13 < other.len ∧ 13 < frame.len ∧ (other.word 12 = frame.word 12 →
          15 + 2 * other.numInCluster < other.len ∧
          15 + 2 * frame.numInCluster < frame.len ∧
          (other.outClusterList .dev1).Fits (frame.inClusterList .dev2) ∧
          (other.inClusterList .dev1).Fits (frame.outClusterList .dev2)))

section EndDeviceBind

variable {device : BindDev} {list1 list2 : ClusterList} {len : BindDev → ℕ}
  {first : Option ZdpFrame} {busy : Bool} {frame : ZdpFrame}

theorem checkClusterList_inside_iff (hlen1 : len list1.device = list1.frame.len)
    (hlen2 : len list2.device = list2.frame.len) :
    (∀ access ∈ (checkClusterList device list1 list2).2, access.Inside len) ↔
      list1.Fits list2 := by
  have hcompared (i j : ℕ) : ClusterList.Compared (BindAccess.Inside len) list1 list2 i j ↔
        list1.start + 2 * i + 2 ≤ list1.frame.len ∧
          list2.start + 2 * j + 2 ≤ list2.frame.len := by
    rw [ClusterList.Compared, ClusterList.reads, ClusterList.reads]
    simp only [cons_append, nil_append, forall_mem_cons, BindAccess.Inside, hlen1, hlen2]
    constructor
    · rintro ⟨-, hfirst, -, hsecond, -⟩
      exact ⟨hfirst, hsecond⟩
    · rintro ⟨hfirst, hsecond⟩
      exact ⟨by omega, by omega, by omega, by omega, fun _ h => nomatch h⟩
  rw [ClusterList.checkClusterList_iff (fun place cluster => Iff.rfl)]
  constructor
  · intro hall
    refine ⟨fun i hi j hj hcomes => ?_, fun i hi => (hall i hi).room⟩
    exact (hcompared i j).mp ((hall i hi).compared j hj hcomes)
  · intro hfits i hi
    refine ⟨fun j hj hcomes => ?_, hfits.room i hi⟩
    exact (hcompared i j).mpr (hfits.compared i hi j hj hcomes)

theorem inside_zdoEndDeviceBindHandler_iff :
    (∀ access ∈ (zdoEndDeviceBindHandler first busy frame).2,
        access.Inside (bindLen first frame)) ↔
      FitsEndDeviceBind first busy frame := by
  have hread (device : BindDev) (index : ℕ) :
      (BindAccess.read device index).Inside (bindLen first frame) ↔
        index < bindLen first frame device := Iff.rfl
  have hlen2 : bindLen first frame .dev2 = frame.len := rfl
  have hnil : (∀ access ∈ ([] : List BindAccess),
      access.Inside (bindLen first frame)) ↔ True := by simp
  rw [FitsEndDeviceBind]
  unfold zdoEndDeviceBindHandler
  dsimp only
  cases hendp : frame.validEndp with
  | false =>
    rw [if_neg Bool.false_ne_true]
    simp only [forall_mem_append, forall_mem_cons, hnil, hread,
      hlen2, Bool.false_eq_true, false_imp_iff, and_true]
    omega
  | true =>
    rw [if_pos rfl]
    cases first with
    | none =>
      simp only [forall_mem_cons, hnil, hread, hlen2, Option.mem_def,
        reduceCtorEq, false_imp_iff, imp_true_iff]
    | some other =>
      have hlen1 : bindLen (some other) frame .dev1 = other.len := rfl
      cases busy with
      | true =>
        simp only [forall_mem_append, forall_mem_cons, hnil,
          hread, hlen2, Bool.true_eq_false, false_imp_iff,
          imp_true_iff, if_true, and_true]
        omega
      | false =>
        have hcheck1 := @checkClusterList_inside_iff .dev1
          (other.outClusterList .dev1) (frame.inClusterList .dev2)
          (bindLen (some other) frame) rfl rfl
        have hcheck2 := @checkClusterList_inside_iff .dev2
          (other.inClusterList .dev1) (frame.outClusterList .dev2)
          (bindLen (some other) frame) rfl rfl
        have hother (p : ZdpFrame → Prop) :
            (true = true → false = false → ∀ saved ∈ some other,
              p saved) ↔ p other := by simp
        rw [hother]
        dsimp only
        rw [if_neg Bool.false_ne_true]
        by_cases hprofile : other.word 12 = frame.word 12
        · rw [if_pos hprofile, forall_prop_of_true hprofile, ← hcheck1, ← hcheck2]
          split
          · simp only [forall_mem_append, forall_mem_cons,
              hnil, hread, hlen1, hlen2, and_true]
            constructor
            · rintro ⟨⟨⟨⟨⟨h, -, h1, -, h2⟩, -, -, hin1, hin2⟩, hlist1⟩, hlist2⟩, -⟩
              exact ⟨h, h1, h2, hin1, hin2, hlist1, hlist2⟩
            · rintro ⟨h, h1, h2, hin1, hin2, hlist1, hlist2⟩
              refine ⟨⟨⟨?_, hlist1⟩, hlist2⟩, ?_⟩
              · omega
              · omega
          · simp only [forall_mem_append, forall_mem_cons,
              hnil, hread, hlen1, hlen2, and_true]
            constructor
            · rintro ⟨⟨⟨⟨⟨⟨h, -, h1, -, h2⟩, -, -, hin1, hin2⟩, hlist1⟩, hlist2⟩, -⟩, -⟩
              exact ⟨h, h1, h2, hin1, hin2, hlist1, hlist2⟩
            · rintro ⟨h, h1, h2, hin1, hin2, hlist1, hlist2⟩
              refine ⟨⟨⟨⟨?_, hlist1⟩, hlist2⟩, ?_⟩, ?_⟩
              · omega
              · omega
              · omega
        · rw [if_neg hprofile, forall_prop_of_false hprofile]
          simp only [forall_mem_append, forall_mem_cons, hnil,
            hread, hlen1, hlen2, and_true]
          omega

end EndDeviceBind

/-- The handlers stay inside their requests, the buffer and the tables for
exactly the requests whose lists fit. -/
theorem zdp_parsers_inside_iff
    (shortAddress : ℕ) (descs : SimpleDescList) (stack : ℕ → UInt8)
    (first : Option ZdpFrame) (busy : Bool) (frame : ZdpFrame) :
    ((zdoMatchDescRes shortAddress descs stack frame).Inside frame ↔ frame.FitsMatchDesc) ∧
      ((∀ access ∈ (zdoEndDeviceBindHandler first busy frame).2,
          access.Inside (bindLen first frame)) ↔
        FitsEndDeviceBind first busy frame) :=
  ⟨inside_zdoMatchDescRes_iff, inside_zdoEndDeviceBindHandler_iff⟩

/-- A match descriptor request for one output cluster. -/
def outMatchDesc : ZdpFrame where
  mem := fun address => if address = 46 then 1 else 0
  dataOffset := 40
  len := 9
  fits := by decide

/-- The two bytes from the last one of the array on are copied. -/
theorem not_inside_outMatchDesc :
    ¬ (zdoMatchDescRes 0 ⟨[], by decide⟩ (fun _ => 0) outMatchDesc).Inside
      outMatchDesc := by
  intro hinside
  have hread : BufAccess.read 148 ∈ (zdoMatchDescRes 0 ⟨[], by decide⟩ (fun _ => 0)
        outMatchDesc).lists := by
    decide
  have hbefore := hinside.reads 148 (mem_append_right _ hread)
  exact absurd hbefore.2 (by decide)

end Zboss
