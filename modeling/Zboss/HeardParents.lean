import Zboss.MovedNeighbors

/-!
# The entries which beacons leave

After any beacons the entry of a device holds what its last beacon said, except
for the identifier of the last update, which is zero in all of them.
-/

namespace Zboss

open Function Option TransitionSystem

section PanIds

variable {panMap after : PanMap} {shortPanId : UInt16} {panId other : ExtPanId}
  {ref r : Fin 8}

section

variable (hset : zbAddressSetPanId panMap shortPanId panId = some (after, ref))

include hset

theorem zbAddressSetPanId_eq_some :
    (after = panMap ∧ zbAddressGetPanIdRef panMap panId = some ref) ∨
      (zbAddressGetPanIdRef panMap panId = none ∧ panMap ref = none ∧
        ref ∈ panIdPlaces panId ∧
        after = update panMap ref (some ⟨shortPanId, panId⟩)) := by
  unfold zbAddressSetPanId at hset
  cases hfound : zbAddressGetPanIdRef panMap panId with
  | some found =>
    rw [hfound] at hset
    obtain ⟨rfl, rfl⟩ := some_pair_inj hset
    exact Or.inl ⟨rfl, rfl⟩
  | none =>
    rw [hfound] at hset
    obtain ⟨free, hfree, heq⟩ := map_eq_some_iff.mp hset
    obtain ⟨rfl, rfl⟩ := Prod.mk.inj heq
    exact Or.inr ⟨rfl, by simpa using List.find?_some hfree,
      List.mem_reverse.mp (List.mem_of_find?_eq_some hfree), rfl⟩

theorem zbAddressGetPanIdRef_set : zbAddressGetPanIdRef after panId = some ref := by
  rcases zbAddressSetPanId_eq_some hset with ⟨rfl, hget⟩ | ⟨hnone, hfree, hmem, rfl⟩
  · exact hget
  · unfold zbAddressGetPanIdRef at hnone ⊢
    rw [List.find?_eq_none] at hnone
    cases hfind : (panIdPlaces panId).find?
        (PanMap.Holds (update panMap ref (some ⟨shortPanId, panId⟩)) panId) with
    | none =>
      rw [List.find?_eq_none] at hfind
      exact absurd (by simp [PanMap.Holds]) (hfind ref hmem)
    | some found =>
      have hholds := List.find?_some hfind
      by_contra hne
      have hfound : found ≠ ref := fun heq => hne (by rw [heq])
      rw [PanMap.Holds, update_of_ne hfound] at hholds
      exact hnone found (List.mem_of_find?_eq_some hfind) hholds

theorem zbAddressGetPanIdRef_kept (hget : zbAddressGetPanIdRef panMap other = some r) :
    zbAddressGetPanIdRef after other = some r := by
  rcases zbAddressSetPanId_eq_some hset with ⟨rfl, -⟩ | ⟨hnone, hfree, -, rfl⟩
  · exact hget
  · have hne : other ≠ panId := by
      rintro rfl
      rw [hget] at hnone
      contradiction
    have hsame : PanMap.Holds (update panMap ref (some ⟨shortPanId, panId⟩)) other =
          panMap.Holds other := by
      funext i
      by_cases heq : i = ref
      · rw [heq]
        simp [PanMap.Holds, hfree, hne.symm]
      · rw [PanMap.Holds, PanMap.Holds, update_of_ne heq]
    rw [zbAddressGetPanIdRef, hsame]
    exact hget

end

end PanIds

/-! ## The entry of a sender -/

structure ReadsAs (g : AddrGlobals) (c : IeeeAddrCompressed) (a : IeeeAddr) : Prop where
  lt : c.devManufacturer < devManufacturerTableSize
  used : g.usedManufacturer c.devManufacturer = true
  reads : zbIeeeAddrDecompress g c = a

variable {g g' : AddrGlobals} {source : BeaconSource IeeeAddr} {zg zg' : Globals}
  {i panidRef : ℕ}

theorem ReadsAs.keeps {c : IeeeAddrCompressed} {a : IeeeAddr} {except : ℕ → Prop}
    (hreads : ReadsAs g c a) (hkeeps : KeepsEntries g g' except) :
    ReadsAs g' c a := by
  obtain ⟨hused, hdev⟩ := hkeeps.slots _ hreads.used
  refine ⟨hreads.lt, hused, ?_⟩
  rw [← hreads.reads, zbIeeeAddrDecompress, zbIeeeAddrDecompress, hdev]

theorem readsAs_of_zbIeeeAddrCompress {c : IeeeAddrCompressed} {a : IeeeAddr}
    (hcompress : zbIeeeAddrCompress g a = some (g', c)) : ReadsAs g' c a := by
  have hin := compressedIn_of_zbIeeeAddrCompress hcompress
  refine ⟨hin.lt, hin.used, ?_⟩
  rw [zbIeeeAddrDecompress, hin.slot, hin.deviceId]

def BeaconSource.Matches (source : BeaconSource IeeeAddr) (g : AddrGlobals)
    (row : ExtNeighborTblEnt) : Prop :=
  match source with
  | .short addr => row.shortAddr = addr
  | .ieee addr => ReadsAs g row.longAddr addr

theorem BeaconSource.Matches.keeps {row : ExtNeighborTblEnt}
    (hmatches : source.Matches g row)
    (hkeeps : KeepsEntries g g' fun _ => False) :
    source.Matches g' row := by
  cases source with
  | short addr => exact hmatches
  | ieee addr => exact ReadsAs.keeps hmatches hkeeps

structure FoundEntry (zg : Globals) (source : BeaconSource IeeeAddr) (i : ℕ)
    (zg' : Globals) : Prop where
  keeps : KeepsEntries zg.addr zg'.addr fun _ => False
  others : ∀ j, j ≠ i → zg'.neighbor.extNeighbor j = zg.neighbor.extNeighbor j
  place : (i < zg.neighbor.extNeighborUsed ∧
        zg'.neighbor.extNeighborUsed = zg.neighbor.extNeighborUsed ∧
        zg'.neighbor.extNeighbor i = zg.neighbor.extNeighbor i) ∨
      (i = zg.neighbor.extNeighborUsed ∧
        zg'.neighbor.extNeighborUsed = zg.neighbor.extNeighborUsed + 1 ∧
        (zg'.neighbor.extNeighbor i).HasOneAddress)
  isSender : source.Matches zg'.addr (zg'.neighbor.extNeighbor i)

theorem allocNewExtneiboard_ok {panidRef addr i : ℕ}
    (halloc : allocNewExtneiboard zg panidRef addr = (zg', .ok i)) :
    zg'.addr = zg.addr ∧ i = zg.neighbor.extNeighborUsed ∧
      zg'.neighbor.extNeighborUsed = zg.neighbor.extNeighborUsed + 1 ∧
      zg'.neighbor.extNeighbor = update zg.neighbor.extNeighbor i
          { ExtNeighborTblEnt.zero with
            shortAddr := addr
            panidRef := panidRef } := by
  unfold allocNewExtneiboard at halloc
  dsimp only at halloc
  split at halloc
  · exact nomatch (Prod.mk.inj halloc).2
  · obtain ⟨rfl, hi⟩ := Prod.mk.inj halloc
    obtain rfl := Except.ok.inj hi
    exact ⟨rfl, rfl, rfl, rfl⟩

theorem foundEntry_short {panidRef addr i : ℕ}
    (hcall : zbNwkExneighborByShort zg panidRef addr = (zg', .ok i)) :
    FoundEntry zg (.short addr) i zg' := by
  unfold zbNwkExneighborByShort at hcall
  dsimp only at hcall
  split at hcall
  · rename_i found hfind
    obtain ⟨rfl, hi⟩ := Prod.mk.inj hcall
    obtain rfl := Except.ok.inj hi
    have hmatch := List.find?_some hfind
    simp only [Bool.and_eq_true, beq_iff_eq] at hmatch
    have hlt := List.mem_range.mp (List.mem_of_find?_eq_some hfind)
    exact ⟨keepsEntries_refl _ _, fun _ _ => rfl, Or.inl ⟨hlt, rfl, rfl⟩, hmatch.1⟩
  · obtain ⟨haddr, hi, hused, hrows⟩ := allocNewExtneiboard_ok hcall
    refine ⟨haddr ▸ keepsEntries_refl _ _, ?_, Or.inr ⟨hi, hused, ?_⟩, ?_⟩
    · intro j hj
      rw [hrows, update_of_ne hj]
    · rw [hrows, update_self]
      exact fun _ => rfl
    · change (zg'.neighbor.extNeighbor i).shortAddr = addr
      rw [hrows, update_self]

theorem foundEntry_ieee {addr : IeeeAddr}
    (hcall : zbNwkExneighborByIeee zg panidRef addr = some (zg', .ok i)) :
    FoundEntry zg (.ieee addr) i zg' := by
  have hkeeps := (zbNwkExneighborByIeee_base hcall).1
  obtain ⟨⟨g₁, c⟩, hcompress, hrest⟩ := bind_eq_some_iff.mp hcall
  dsimp only at hrest
  split at hrest
  · rename_i found hfind
    obtain ⟨rfl, hi⟩ := some_pair_inj hrest
    obtain rfl := Except.ok.inj hi
    have hmatch := List.find?_some hfind
    simp only [Bool.and_eq_true, beq_iff_eq] at hmatch
    have hlt := List.mem_reverse.mp (List.mem_of_find?_eq_some hfind)
    refine ⟨hkeeps, fun _ _ => rfl, Or.inl ⟨List.mem_range.mp hlt, rfl, rfl⟩, ?_⟩
    change ReadsAs g₁ (zg.neighbor.extNeighbor found).longAddr addr
    rw [hmatch.2]
    exact readsAs_of_zbIeeeAddrCompress hcompress
  · split at hrest
    · rename_i zg₁ j halloc
      obtain ⟨haddr, hj, hused, hrows⟩ := allocNewExtneiboard_ok halloc
      obtain ⟨⟨g₂, c₂⟩, hcompress₂, hlast⟩ := bind_eq_some_iff.mp hrest
      obtain ⟨rfl, hi⟩ := some_pair_inj hlast
      obtain rfl := Except.ok.inj hi
      refine ⟨hkeeps, ?_, Or.inr ⟨hj, hused, ?_⟩, ?_⟩
      · intro k hk
        dsimp only [Globals.setExtNeighbor]
        rw [update_of_ne hk, hrows, update_of_ne hk]
      · dsimp only [Globals.setExtNeighbor]
        rw [update_self, hrows, update_self]
        exact fun hshort => absurd rfl hshort
      · dsimp only [BeaconSource.Matches, Globals.setExtNeighbor]
        rw [update_self]
        exact readsAs_of_zbIeeeAddrCompress hcompress₂
    · exact nomatch (some_pair_inj hrest).2

theorem foundEntry_exneighborOf
    (hcall : JoinDevice.exneighborOf zg panidRef source = some (zg', .ok i)) :
    FoundEntry zg source i zg' := by
  cases source with
  | short addr => exact foundEntry_short (some.inj hcall)
  | ieee addr => exact foundEntry_ieee hcall

theorem exneighborOf_error {err : RetError}
    (hcall : JoinDevice.exneighborOf zg panidRef source = some (zg', .error err)) :
    KeepsEntries zg.addr zg'.addr (fun _ => False) ∧ zg'.neighbor = zg.neighbor := by
  have halloc : ∀ {zg zg' : Globals} {addr : ℕ},
      allocNewExtneiboard zg panidRef addr = (zg', .error err) → zg' = zg := by
    intro zg zg' addr heq
    unfold allocNewExtneiboard at heq
    dsimp only at heq
    split at heq
    · exact (Prod.mk.inj heq).1.symm
    · exact nomatch (Prod.mk.inj heq).2
  cases source with
  | short addr =>
    have hshort := some.inj hcall
    unfold zbNwkExneighborByShort at hshort
    dsimp only at hshort
    split at hshort
    · exact nomatch (Prod.mk.inj hshort).2
    · rw [halloc hshort]
      exact ⟨keepsEntries_refl _ _, rfl⟩
  | ieee addr =>
    refine ⟨(zbNwkExneighborByIeee_base hcall).1, ?_⟩
    obtain ⟨⟨g₁, c⟩, -, hrest⟩ := bind_eq_some_iff.mp hcall
    dsimp only at hrest
    split at hrest
    · exact nomatch (some_pair_inj hrest).2
    · split at hrest
      · obtain ⟨_, -, hlast⟩ := bind_eq_some_iff.mp hrest
        exact nomatch (some_pair_inj hlast).2
      · rename_i zg₁ err' hfull
        obtain ⟨rfl, herr⟩ := some_pair_inj hrest
        obtain rfl := Except.error.inj herr
        rw [halloc hfull]

namespace JoinDevice

structure HeardRow (dev : JoinDevice) (i : ℕ) (beacon : ParentBeacon) : Prop where
  depth : (dev.zg.neighbor.extNeighbor i).depth = beacon.info.depth
  channel : dev.rowChannel i = beacon.channel.val
  panidRef : ∃ ref, zbAddressGetPanIdRef dev.panMap beacon.extendedPanid = some ref ∧
      (dev.zg.neighbor.extNeighbor i).panidRef = ref.val
  isSender : beacon.source.Matches dev.zg.addr (dev.zg.neighbor.extNeighbor i)

structure EntriesHeard (dev : JoinDevice) : Prop where
  oneAddress : ∀ i, i < dev.zg.neighbor.extNeighborUsed →
    (dev.zg.neighbor.extNeighbor i).HasOneAddress
  updateId : ∀ i, i < dev.zg.neighbor.extNeighborUsed → dev.rowUpdateId i = 0
  heard : ∀ i beacon, i < dev.zg.neighbor.extNeighborUsed →
    dev.heard i = some beacon → dev.HeardRow i beacon

theorem HeardRow.congr {dev dev' : JoinDevice} {i : ℕ} {beacon : ParentBeacon}
    (hrow : dev.HeardRow i beacon)
    (hkeeps : KeepsEntries dev.zg.addr dev'.zg.addr fun _ => False)
    (hpanMap : ∀ panId ref, zbAddressGetPanIdRef dev.panMap panId = some ref →
      zbAddressGetPanIdRef dev'.panMap panId = some ref)
    (hsame : dev'.zg.neighbor.extNeighbor i = dev.zg.neighbor.extNeighbor i)
    (hchannel : dev'.rowChannel i = dev.rowChannel i) :
    dev'.HeardRow i beacon := by
  obtain ⟨ref, hget, href⟩ := hrow.panidRef
  refine ⟨?_, ?_, ⟨ref, hpanMap _ _ hget, ?_⟩, ?_⟩
  · rw [hsame]
    exact hrow.depth
  · rw [hchannel]
    exact hrow.channel
  · rw [hsame]
    exact href
  · rw [hsame]
    exact hrow.isSender.keeps hkeeps

variable {dev : JoinDevice}

theorem entriesHeard_start (hempty : dev.zg.neighbor.extNeighborUsed = 0) :
    dev.EntriesHeard := by
  refine ⟨?_, ?_, ?_⟩
  · intro i hi
    omega
  · intro i hi
    omega
  · intro i beacon hi
    omega

theorem EntriesHeard.hear
    {dev next : JoinDevice} {beacon : ParentBeacon} (hheard : dev.EntriesHeard)
    (hhear : dev.hear beacon = some next) : next.EntriesHeard := by
  unfold JoinDevice.hear at hhear
  split at hhear
  · obtain rfl := some.inj hhear
    exact hheard
  · rename_i panMap ref hset
    have hpanMap : ∀ panId r, zbAddressGetPanIdRef dev.panMap panId = some r →
          zbAddressGetPanIdRef panMap panId = some r :=
      fun panId r hget => zbAddressGetPanIdRef_kept hset hget
    obtain ⟨⟨zg, ret⟩, hcall, hrest⟩ := bind_eq_some_iff.mp hhear
    cases ret with
    | error err =>
      obtain rfl := some.inj hrest
      obtain ⟨hkeeps, hneighbor⟩ := exneighborOf_error hcall
      refine ⟨?_, ?_, ?_⟩
      · dsimp only
        rw [hneighbor]
        exact hheard.oneAddress
      · dsimp only
        rw [hneighbor]
        exact hheard.updateId
      · intro i b hi hb
        dsimp only at hi hb
        rw [hneighbor] at hi
        exact (hheard.heard i b hi hb).congr hkeeps hpanMap (by rw [hneighbor]) rfl
    | ok i =>
      obtain rfl := some.inj hrest
      have hfound := foundEntry_exneighborOf hcall
      refine ⟨?_, ?_, ?_⟩
      · intro j hj
        dsimp only [fillExtNeighbor, Globals.setExtNeighbor] at hj ⊢
        by_cases hji : j = i
        · rw [hji, update_self]
          rcases hfound.place with ⟨hi, -, hsame⟩ | ⟨-, -, hone⟩
          · have hone := hheard.oneAddress i hi
            rw [← hsame] at hone
            exact hone
          · exact hone
        · rw [update_of_ne hji, hfound.others j hji]
          refine hheard.oneAddress j ?_
          rcases hfound.place with ⟨-, hused, -⟩ | ⟨hi, hused, -⟩ <;> omega
      · intro j hj
        dsimp only [fillExtNeighbor, Globals.setExtNeighbor] at hj ⊢
        split
        · rename_i hnew
          by_cases hji : j = i
          · rw [hji, update_self]
          · rw [update_of_ne hji]
            refine hheard.updateId j ?_
            rcases hfound.place with ⟨-, hused, -⟩ | ⟨-, hused, -⟩ <;> omega
        · rename_i hold
          refine hheard.updateId j ?_
          rcases hfound.place with ⟨-, hused, -⟩ | ⟨hi, -, -⟩
          · omega
          · exact absurd hi hold
      · intro j b hj hb
        dsimp only [fillExtNeighbor, Globals.setExtNeighbor] at hj hb ⊢
        by_cases hji : j = i
        · rw [hji, update_self, some.injEq] at hb
          rw [hji, ← hb]
          refine ⟨?_, ?_, ⟨ref, zbAddressGetPanIdRef_set hset, ?_⟩, ?_⟩
          · dsimp only
            rw [update_self]
          · dsimp only
            rw [update_self]
          · dsimp only
            rw [update_self]
          · dsimp only
            rw [update_self]
            have hsender := hfound.isSender
            cases hsource : beacon.source with
            | short addr =>
              rw [hsource] at hsender
              exact hsender
            | ieee addr =>
              rw [hsource] at hsender
              exact hsender
        · rw [update_of_ne hji] at hb
          have hlt : j < dev.zg.neighbor.extNeighborUsed := by
            rcases hfound.place with ⟨-, hused, -⟩ | ⟨hi, hused, -⟩ <;> omega
          refine (hheard.heard j b hlt hb).congr hfound.keeps hpanMap ?_ ?_
          · dsimp only
            rw [update_of_ne hji, hfound.others j hji]
          · exact update_of_ne hji _ _

theorem entriesHeard_of_run {start dev : JoinDevice} {beacons : List ParentBeacon}
    (hempty : start.zg.neighbor.extNeighborUsed = 0)
    (hrun : run JoinDevice.hear start beacons = some dev) :
    dev.EntriesHeard := by
  refine @invariant_of_run _ _ _ (fun _ _ => True) EntriesHeard ?_ _ _ _
    (entriesHeard_start hempty) (alongRun_of_forall (fun _ _ => trivial) _ _)
    hrun
  intro state beacon next hheard _ hhear
  exact hheard.hear hhear

end JoinDevice

end Zboss
