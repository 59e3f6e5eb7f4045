import Zboss.FirstOccurrences
import Zboss.ScannedNetworks

/-!
# The networks of a discovery

The end of a discovery in `zb_mlme_scan_confirm`.  The extended neighbor table
is gone through twice, first for coordinators, and each network is described by
the first of its devices which is met.  Functions return `none` where the
source asserts.
-/

namespace Zboss

open Option FirstOccurrences

structure NetworkDescriptor where
  extendedPanId : ExtPanId
  logicalChannel : Channel
  stackProfile : ℕ
  zigbeeVersion : ℕ
  beaconOrder : Fin 16
  superframeOrder : Fin 16
  permitJoining : Bool
  routerCapacity : Bool
  endDeviceCapacity : Bool

/-- `zb_nlme_network_discovery_confirm_t` with the descriptors behind it. -/
structure NetworkDiscoveryConfirm where
  networkCount : UInt8
  status : UInt8
  descriptors : List NetworkDescriptor

/-- An entry with the fields of `zb_ext_neighbor_tbl_ent_t` which are not in
`ScannedNeighbor`. -/
structure DiscoveredNeighbor extends ScannedNeighbor where
  beaconOrder : Fin 16
  superframeOrder : Fin 16

structure DiscoveryNwk where
  state : NlmeState
  discCount : UInt8
  tables : ScanTables
  orders : ℕ → Fin 16 × Fin 16

/-- What becomes of the buffer: it waits for another discovery, or for the
confirm to be called. -/
inductive DiscoveryEnd where
  | discoveryRequest
  | discoveryConfirm (confirm : NetworkDiscoveryConfirm)

def zbAddressGetPanId (panMap : PanMap) (ref : Fin 8) : Option ExtPanId :=
  (panMap ref).map (·.longPanid)

def zbAddressCmpPanIdByRef (panMap : PanMap) (ref : Fin 8)
    (panId : ExtPanId) : Option Bool :=
  (panMap ref).map (·.longPanid == panId)

def DiscoveredNeighbor.descriptor (ent : DiscoveredNeighbor)
    (panId : ExtPanId) : NetworkDescriptor where
  extendedPanId := panId
  logicalChannel := ent.logicalChannel
  stackProfile := ent.stackProfile
  zigbeeVersion := nwkProtocolVersion
  beaconOrder := ent.beaconOrder
  superframeOrder := ent.superframeOrder
  permitJoining := ent.permitJoining
  routerCapacity := ent.routerCapacity
  endDeviceCapacity := ent.endDeviceCapacity

def isDescribed (panMap : PanMap) (ref : Fin 8) : List NetworkDescriptor → Option Bool
  | [] => some false
  | descriptor :: rest => do
      if ← zbAddressCmpPanIdByRef panMap ref descriptor.extendedPanId then return true
      else isDescribed panMap ref rest

def describeEntry (panMap : PanMap) (devTypeCmp : ℕ)
    (descriptors : List NetworkDescriptor) (ent : DiscoveredNeighbor) :
    Option (List NetworkDescriptor) :=
  if devTypeCmp = 0 ∨ ent.deviceType = .coordinator then do
    if ← isDescribed panMap ent.panidRef descriptors then return descriptors
    else
      let panId ← zbAddressGetPanId panMap ent.panidRef
      return descriptors ++ [ent.descriptor panId]
  else some descriptors

def describePass (panMap : PanMap) (entries : List DiscoveredNeighbor)
    (devTypeCmp : ℕ) (descriptors : List NetworkDescriptor) :
    Option (List NetworkDescriptor) :=
  entries.foldlM (describeEntry panMap devTypeCmp) descriptors

namespace DiscoveryNwk

def extNeighbors (nwk : DiscoveryNwk) : List DiscoveredNeighbor :=
  nwk.tables.extNeighbors.zipIdx.map fun ent =>
    { ent.1 with
      beaconOrder := (nwk.orders ent.2).1
      superframeOrder := (nwk.orders ent.2).2 }

/-- `zb_mlme_scan_confirm` in the state `ZB_NLME_STATE_DISC`.  The status of the
buffer is read behind `ZB_BUF_INITIAL_ALLOC`, which has zeroed it. -/
def mlmeScanConfirmDisc (nwk : DiscoveryNwk) :
    Option (DiscoveryNwk × DiscoveryEnd) :=
  let discCount := if nwk.discCount ≠ 0 then nwk.discCount - 1
    else nwk.discCount
  let next := { nwk with state := .idle, discCount := discCount }
  if discCount ≠ 0 then some (next, .discoveryRequest)
  else do
    let coordinators ← describePass nwk.tables.panMap nwk.extNeighbors 1 []
    let descriptors ←
      describePass nwk.tables.panMap nwk.extNeighbors 0 coordinators
    return (next, .discoveryConfirm
      { networkCount := UInt8.ofNat descriptors.length
        status := 0
        descriptors := descriptors })

def panIdOf (nwk : DiscoveryNwk) (ent : DiscoveredNeighbor) :
    Option ExtPanId :=
  zbAddressGetPanId nwk.tables.panMap ent.panidRef

/-- The descriptor is the record of the entry. -/
structure RecordOf (descriptor : NetworkDescriptor) (ent : DiscoveredNeighbor) : Prop where
  logicalChannel : descriptor.logicalChannel = ent.logicalChannel
  stackProfile : descriptor.stackProfile = ent.stackProfile
  zigbeeVersion : descriptor.zigbeeVersion = 2
  beaconOrder : descriptor.beaconOrder = ent.beaconOrder
  superframeOrder : descriptor.superframeOrder = ent.superframeOrder
  permitJoining : descriptor.permitJoining = ent.permitJoining
  routerCapacity : descriptor.routerCapacity = ent.routerCapacity
  endDeviceCapacity : descriptor.endDeviceCapacity = ent.endDeviceCapacity

/-- Each network of the table is described once, by a coordinator if one was
heard, and the descriptors fit in the buffer. -/
structure DescribesNetworks (nwk : DiscoveryNwk)
    (confirm : NetworkDiscoveryConfirm) : Prop where
  once : (confirm.descriptors.map (·.extendedPanId)).Nodup
  networks : ∀ panId, (∃ descriptor ∈ confirm.descriptors,
      descriptor.extendedPanId = panId) ↔
    ∃ ent ∈ nwk.extNeighbors, nwk.panIdOf ent = some panId
  record : ∀ descriptor ∈ confirm.descriptors, ∃ ent ∈ nwk.extNeighbors,
    nwk.panIdOf ent = some descriptor.extendedPanId ∧ RecordOf descriptor ent ∧
      ((∃ other ∈ nwk.extNeighbors, nwk.panIdOf other = some descriptor.extendedPanId ∧
          other.deviceType = .coordinator) → ent.deviceType = .coordinator)
  count : confirm.networkCount.toNat = confirm.descriptors.length
  fits : confirm.descriptors.length ≤ panidTableSize

def describe (nwk : DiscoveryNwk) (ent : DiscoveredNeighbor) :
    NetworkDescriptor :=
  ent.descriptor ((nwk.panIdOf ent).getD 0)

variable {nwk : DiscoveryNwk}

theorem panIdOf_isSome {ent : DiscoveredNeighbor}
    (hmem : ent ∈ nwk.extNeighbors) : (nwk.panIdOf ent).isSome := by
  obtain ⟨⟨scanned, i⟩, hscanned, rfl⟩ := List.mem_map.mp hmem
  have hknown := nwk.tables.known scanned (List.fst_mem_of_mem_zipIdx hscanned)
  rw [panIdOf, zbAddressGetPanId, Option.isSome_map]
  exact hknown

theorem some_extendedPanId {ent : DiscoveredNeighbor} (hsome : (nwk.panIdOf ent).isSome) :
    some (nwk.describe ent).extendedPanId = nwk.panIdOf ent := by
  obtain ⟨panId, hpanId⟩ := isSome_iff_exists.mp hsome
  rw [describe, hpanId]
  rfl

theorem isDescribed_eq {ref : Fin 8} {panId : ExtPanId}
    (hid : zbAddressGetPanId nwk.tables.panMap ref = some panId)
    (descriptors : List NetworkDescriptor) :
    isDescribed nwk.tables.panMap ref descriptors =
      some (decide (∃ descriptor ∈ descriptors, descriptor.extendedPanId = panId)) := by
  obtain ⟨ent, hent, rfl⟩ := map_eq_some_iff.mp hid
  induction descriptors with
  | nil => simp [isDescribed]
  | cons descriptor rest ih =>
    have hcmp : zbAddressCmpPanIdByRef nwk.tables.panMap ref descriptor.extendedPanId =
        some (ent.longPanid == descriptor.extendedPanId) := by
      rw [zbAddressCmpPanIdByRef, hent]
      rfl
    rw [isDescribed, hcmp, bind_eq_bind, bind_some]
    by_cases hsame : ent.longPanid = descriptor.extendedPanId
    · simp [hsame]
    · have hother : ¬ descriptor.extendedPanId = ent.longPanid :=
        fun h => hsame h.symm
      rw [if_neg (by simpa using hsame), ih]
      simp [hother]

def LooksAt (devTypeCmp : ℕ) (ent : DiscoveredNeighbor) : Bool :=
  devTypeCmp = 0 ∨ ent.deviceType = .coordinator

theorem describeEntry_eq (devTypeCmp : ℕ) {kept : List DiscoveredNeighbor}
    {ent : DiscoveredNeighbor}
    (hkept : ∀ old ∈ kept, (nwk.panIdOf old).isSome)
    (hent : (nwk.panIdOf ent).isSome) :
    describeEntry nwk.tables.panMap devTypeCmp (kept.map nwk.describe) ent =
      some ((if LooksAt devTypeCmp ent then step nwk.panIdOf kept ent
        else kept).map nwk.describe) := by
  obtain ⟨panId, hpanId⟩ := isSome_iff_exists.mp hent
  have hiff : (∃ descriptor ∈ kept.map nwk.describe, descriptor.extendedPanId = panId) ↔
      ∃ old ∈ kept, nwk.panIdOf old = nwk.panIdOf ent := by
    rw [hpanId]
    constructor
    · rintro ⟨_, hdescriptor, rfl⟩
      obtain ⟨old, hold, rfl⟩ := List.mem_map.mp hdescriptor
      exact ⟨old, hold, (some_extendedPanId (hkept old hold)).symm⟩
    · rintro ⟨old, hold, heq⟩
      rw [← some_extendedPanId (hkept old hold), some_inj] at heq
      exact ⟨nwk.describe old, List.mem_map_of_mem hold, heq⟩
  rw [describeEntry]
  by_cases hlooks : devTypeCmp = 0 ∨ ent.deviceType = .coordinator
  · have hlooks' : LooksAt devTypeCmp ent = true := by simpa [LooksAt]
    rw [if_pos hlooks, if_pos hlooks', isDescribed_eq hpanId, step,
      bind_eq_bind, bind_some]
    by_cases hold : ∃ old ∈ kept, nwk.panIdOf old = nwk.panIdOf ent
    · rw [if_pos (by simpa using hiff.mpr hold), if_pos hold]
      rfl
    · have hget : zbAddressGetPanId nwk.tables.panMap ent.panidRef =
          some panId := hpanId
      have hrecord : nwk.describe ent = ent.descriptor panId := by
        rw [describe, hpanId]
        rfl
      rw [if_neg (by simpa using mt hiff.mp hold), if_neg hold, hget,
        List.map_append, List.map_singleton, hrecord]
      rfl
  · have hlooks' : ¬ LooksAt devTypeCmp ent = true := by
      simpa [LooksAt] using hlooks
    rw [if_neg hlooks, if_neg hlooks']

theorem isSome_of_mem_step {kept : List DiscoveredNeighbor} {ent : DiscoveredNeighbor}
    (hkept : ∀ old ∈ kept, (nwk.panIdOf old).isSome)
    (hent : (nwk.panIdOf ent).isSome) :
    ∀ old ∈ step nwk.panIdOf kept ent, (nwk.panIdOf old).isSome := by
  rw [step]
  split
  · exact hkept
  · intro old hold
    rcases List.mem_append.mp hold with hbefore | hnew
    · exact hkept old hbefore
    · rw [List.mem_singleton.mp hnew]
      exact hent

theorem describePass_eq (devTypeCmp : ℕ) (entries kept : List DiscoveredNeighbor)
    (hkept : ∀ old ∈ kept, (nwk.panIdOf old).isSome)
    (hentries : ∀ ent ∈ entries, (nwk.panIdOf ent).isSome) :
    describePass nwk.tables.panMap entries devTypeCmp (kept.map nwk.describe) =
      some (((entries.filter (LooksAt devTypeCmp)).foldl
        (step nwk.panIdOf) kept).map nwk.describe) := by
  induction entries generalizing kept with
  | nil => rfl
  | cons ent rest ih =>
    have hent := hentries ent List.mem_cons_self
    have hrest : ∀ other ∈ rest, (nwk.panIdOf other).isSome :=
      fun other hother => hentries other (List.mem_cons_of_mem _ hother)
    have hbody := describeEntry_eq devTypeCmp hkept hent
    rw [describePass, List.foldlM_cons, hbody, bind_eq_bind, bind_some]
    by_cases hlooks : LooksAt devTypeCmp ent = true
    · rw [if_pos hlooks, List.filter_cons_of_pos hlooks, List.foldl_cons]
      exact ih _ (isSome_of_mem_step hkept hent) hrest
    · rw [if_neg hlooks, List.filter_cons_of_neg hlooks]
      exact ih _ hkept hrest

def met (nwk : DiscoveryNwk) : List DiscoveredNeighbor :=
  nwk.extNeighbors.filter (·.deviceType = .coordinator) ++ nwk.extNeighbors

theorem mem_met {ent : DiscoveredNeighbor} :
    ent ∈ nwk.met ↔ ent ∈ nwk.extNeighbors := by
  rw [met, List.mem_append, List.mem_filter]
  exact or_iff_right_of_imp And.left

theorem descriptors_eq : (describePass nwk.tables.panMap nwk.extNeighbors 1 []).bind
        (describePass nwk.tables.panMap nwk.extNeighbors 0) =
      some ((FirstOccurrences.collect nwk.panIdOf nwk.met).map nwk.describe) := by
  have hall : ∀ ent ∈ nwk.extNeighbors, (nwk.panIdOf ent).isSome :=
    fun ent hent => panIdOf_isSome hent
  have hfirst := describePass_eq 1 nwk.extNeighbors [] (by nofun) hall
  have hcoordinators : nwk.extNeighbors.filter (LooksAt 1) =
      nwk.extNeighbors.filter (·.deviceType = .coordinator) := by
    refine List.filter_congr fun ent _ => ?_
    simp [LooksAt]
  have hothers : nwk.extNeighbors.filter (LooksAt 0) = nwk.extNeighbors :=
    List.filter_eq_self.mpr fun ent _ => by simp [LooksAt]
  have hcollected : ∀ ent ∈ FirstOccurrences.collect nwk.panIdOf
      (nwk.extNeighbors.filter (·.deviceType = .coordinator)),
      (nwk.panIdOf ent).isSome := by
    intro ent hent
    have hmem := List.mem_of_find?_eq_some (mem_collect.mp hent)
    exact hall ent (List.mem_filter.mp hmem).1
  rw [List.map_nil, hcoordinators] at hfirst
  rw [hfirst, bind_some]
  refine (describePass_eq 0 nwk.extNeighbors _ hcollected hall).trans ?_
  rw [hothers, met, FirstOccurrences.collect, FirstOccurrences.collect, List.foldl_append]

theorem isSome_of_mem_collect {ent : DiscoveredNeighbor}
    (hent : ent ∈ FirstOccurrences.collect nwk.panIdOf nwk.met) :
    ent ∈ nwk.extNeighbors ∧ (nwk.panIdOf ent).isSome := by
  have hmem := mem_met.mp (List.mem_of_find?_eq_some (mem_collect.mp hent))
  exact ⟨hmem, panIdOf_isSome hmem⟩

theorem extendedPanIds_eq :
    (((FirstOccurrences.collect nwk.panIdOf nwk.met).map nwk.describe).map
        (·.extendedPanId)).map some =
      (FirstOccurrences.collect nwk.panIdOf nwk.met).map nwk.panIdOf := by
  rw [List.map_map, List.map_map]
  exact List.map_congr_left fun ent hent =>
    some_extendedPanId (isSome_of_mem_collect hent).2

theorem length_collect_le : (FirstOccurrences.collect nwk.panIdOf nwk.met).length ≤
      panidTableSize := by
  have hsubset : (FirstOccurrences.collect nwk.panIdOf nwk.met).map nwk.panIdOf ⊆
      (List.finRange 8).map (zbAddressGetPanId nwk.tables.panMap) := by
    intro panId hpanId
    obtain ⟨ent, -, rfl⟩ := List.mem_map.mp hpanId
    exact List.mem_map_of_mem (List.mem_finRange ent.panidRef)
  have hlength := (List.subperm_of_subset nodup_collect hsubset).length_le
  rw [List.length_map, List.length_map, List.length_finRange] at hlength
  exact hlength

theorem coordinator_of_mem_collect {ent other : DiscoveredNeighbor}
    (hent : ent ∈ FirstOccurrences.collect nwk.panIdOf nwk.met)
    (hother : other ∈ nwk.extNeighbors)
    (hsame : nwk.panIdOf other = nwk.panIdOf ent)
    (hcoordinator : other.deviceType = .coordinator) :
    ent.deviceType = .coordinator := by
  have hfirst := mem_collect.mp hent
  have hmem : other ∈ nwk.extNeighbors.filter (·.deviceType = .coordinator) :=
    List.mem_filter.mpr ⟨hother, by simpa using hcoordinator⟩
  have hsome : ((nwk.extNeighbors.filter (·.deviceType = .coordinator)).find?
      fun y => nwk.panIdOf y = nwk.panIdOf ent).isSome :=
    List.find?_isSome.mpr ⟨other, hmem, by simpa using hsame⟩
  rw [met, List.find?_append, Option.or_of_isSome hsome] at hfirst
  have hfound := List.mem_of_find?_eq_some hfirst
  simpa using (List.mem_filter.mp hfound).2

theorem describesNetworks_collect (nwk : DiscoveryNwk) : nwk.DescribesNetworks
      { networkCount :=
          UInt8.ofNat ((FirstOccurrences.collect nwk.panIdOf nwk.met).map
            nwk.describe).length
        status := 0
        descriptors := (FirstOccurrences.collect nwk.panIdOf nwk.met).map
          nwk.describe } := by
  have hfits : ((FirstOccurrences.collect nwk.panIdOf nwk.met).map nwk.describe).length ≤
      panidTableSize := by
    rw [List.length_map]
    exact length_collect_le
  refine ⟨?_, fun panId => ?_, ?_, ?_, hfits⟩
  · have hnodup : ((FirstOccurrences.collect nwk.panIdOf nwk.met).map nwk.panIdOf).Nodup :=
      nodup_collect
    rw [← extendedPanIds_eq] at hnodup
    exact hnodup.of_map some
  · have hexists : (∃ ent ∈ FirstOccurrences.collect nwk.panIdOf nwk.met,
          nwk.panIdOf ent = some panId) ↔
        ∃ ent ∈ nwk.met, nwk.panIdOf ent = some panId := exists_mem_collect
    simp only [mem_met] at hexists
    rw [← hexists]
    constructor
    · rintro ⟨_, hdescriptor, rfl⟩
      obtain ⟨ent, hent, rfl⟩ := List.mem_map.mp hdescriptor
      exact ⟨ent, hent, (some_extendedPanId (isSome_of_mem_collect hent).2).symm⟩
    · rintro ⟨ent, hent, hpanId⟩
      refine ⟨nwk.describe ent, List.mem_map_of_mem hent, ?_⟩
      rw [← some_extendedPanId (isSome_of_mem_collect hent).2] at hpanId
      exact some.inj hpanId
  · intro descriptor hdescriptor
    obtain ⟨ent, hent, rfl⟩ := List.mem_map.mp hdescriptor
    obtain ⟨hmem, hsome⟩ := isSome_of_mem_collect hent
    have hpanId := some_extendedPanId hsome
    refine ⟨ent, hmem, hpanId.symm, ⟨rfl, rfl, rfl, rfl, rfl, rfl, rfl, rfl⟩, ?_⟩
    rintro ⟨other, hother, hsame, hcoordinator⟩
    exact coordinator_of_mem_collect hent hother (hsame.trans hpanId) hcoordinator
  · rw [panidTableSize] at hfits
    exact UInt8.toNat_ofNat_of_lt (by
      rw [UInt8.size]
      omega)

/-- The last scan of a discovery ends with a confirm which describes the
networks of the table. -/
theorem describesNetworks_mlmeScanConfirmDisc (nwk : DiscoveryNwk) :
    ∃ next result, nwk.mlmeScanConfirmDisc = some (next, result) ∧ next.state = .idle ∧
      (result = .discoveryRequest ↔ 1 < nwk.discCount.toNat) ∧
      ∀ confirm, result = .discoveryConfirm confirm →
        confirm.status = 0 ∧ nwk.DescribesNetworks confirm := by
  have hcount : (if nwk.discCount ≠ 0 then nwk.discCount - 1
      else nwk.discCount) ≠ 0 ↔ 1 < nwk.discCount.toNat := by
    split
    · rename_i hne
      rw [Ne, ← UInt8.toNat_inj, UInt8.toNat_zero] at hne
      have hle : (1 : UInt8) ≤ nwk.discCount := by
        rw [UInt8.le_iff_toNat_le, UInt8.toNat_one]
        omega
      rw [Ne, ← UInt8.toNat_inj, UInt8.toNat_sub_of_le _ _ hle,
        UInt8.toNat_one, UInt8.toNat_zero]
      omega
    · rename_i hzero
      rw [not_not.mp hzero]
      decide
  by_cases hagain : 1 < nwk.discCount.toNat
  · refine ⟨_, .discoveryRequest, if_pos (hcount.mpr hagain), rfl,
      iff_of_true rfl hagain, ?_⟩
    nofun
  · obtain ⟨coordinators, hcoordinators, hdescriptors⟩ :=
      bind_eq_some_iff.mp (@descriptors_eq nwk)
    have hcall : nwk.mlmeScanConfirmDisc = _ := if_neg (mt hcount.mp hagain)
    rw [hcoordinators, bind_eq_bind, bind_some, hdescriptors, bind_some] at hcall
    refine ⟨_, _, hcall, rfl, iff_of_false nofun hagain, ?_⟩
    rintro confirm heq
    obtain rfl := DiscoveryEnd.discoveryConfirm.inj heq
    exact ⟨rfl, describesNetworks_collect nwk⟩

end DiscoveryNwk

end Zboss
