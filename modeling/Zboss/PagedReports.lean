import Zboss.PacketBuffer
import Zboss.StackGlobals

/-!
# Reports in pages

`zdo_lqi_resp` and the extended responses of `zdo_device_nwk_addr_res` and
`zdo_device_ieee_addr_res`, which a client asks for with increasing start
indices.
-/

namespace Zboss

open List

structure Page (α : Type*) where
  entries : ℕ
  startIndex : ℕ
  count : ℕ
  records : List α
  length : ℕ

/-- The client, which adds the number of records received to the start index
until it has reached the number of entries. -/
def collect {α : Type*} (respond : ℕ → Option (Page α)) : ℕ → ℕ → Option (List α)
  | 0, _ => none
  | fuel + 1, startIndex => do
      let page ← respond startIndex
      if page.entries ≤ startIndex + page.records.length then some page.records
      else do
        let rest ← collect respond fuel (startIndex + page.records.length)
        some (page.records ++ rest)

/-- The client gets each row once, and each response tells what it contains and
fits the buffer behind the headers of the lower layers. -/
structure ReportsRows {α : Type*} (headers : ℕ) (rows : List α)
    (respond : ℕ → Option (Page α)) : Prop where
  complete : ∃ fuel list, collect respond fuel 0 = some list ∧ list.Perm rows
  startIndex : ∀ s < 256, ∀ page ∈ respond s, page.startIndex = s
  count : ∀ s < 256, ∀ page ∈ respond s, page.count = page.records.length
  fits : ∀ s < 256, ∀ page ∈ respond s, headers + page.length ≤ ioBufSize

/-- `zb_zdo_neighbor_table_record_t` with the three parts of `type_flags`. -/
structure NeighborTableRecord where
  extPanId : UInt64
  extAddr : UInt64
  networkAddr : UInt16
  deviceType : DeviceType
  rxOnWhenIdle : Bool
  relationship : Relationship
  permitJoin : ℕ
  depth : ℕ
  lqi : UInt8

structure ReportingDevice where
  neighbor : NeighborTbl
  extPanId : UInt64
  addressByRef : ℕ → UInt64 × UInt16

namespace ReportingDevice

def record (device : ReportingDevice) (ent : NeighborTblEnt) : NeighborTableRecord where
  extPanId := device.extPanId
  extAddr := (device.addressByRef ent.addrRef).1
  networkAddr := (device.addressByRef ent.addrRef).2
  deviceType := ent.deviceType
  rxOnWhenIdle := ent.rxOnWhenIdle
  relationship := ent.relationship
  permitJoin := ent.permitJoining
  depth := ent.depth
  lqi := ent.lqi

def lqiRecords (device : ReportingDevice) : ℕ → ℕ → ℕ → List NeighborTableRecord
  | 0, _, _ => []
  | rest + 1, i, recordsNum =>
      let ent := device.neighbor.baseNeighbor i
      if recordsNum = 0 then []
      else if ent.used then
        device.record ent :: device.lqiRecords rest (i + 1) (recordsNum - 1)
      else device.lqiRecords rest (i + 1) recordsNum

/-- The sum of the headers, in which `ZB_MAC_MAX_HEADER_SIZE` is not put in
parentheses: its conditions take what stands before them. -/
def lqiHeaderSize (front back : ℕ) : ℕ :=
  if front + 2 + 1 + 1 ≠ 0 then 2
  else if 8 + 2 + 1 ≠ 0 then 2
  else 8 + back

def lqiRecordsNum (maxRecordsNum used startIndex : ℕ) : ℕ :=
  let recordsNum := if startIndex < used then used - startIndex else 0
  if recordsNum < maxRecordsNum then recordsNum else maxRecordsNum

/-- `i` are the sizes of the other headers; `reqPos` is where the start index
lies in the buffer, in which the response is made. -/
def zdoLqiResp (device : ReportingDevice) (front back reqPos startIndex : ℕ) :
    Option (Page NeighborTableRecord) :=
  let used := device.neighbor.baseNeighborUsed
  let recordsNum := lqiRecordsNum (ioBufSize / lqiHeaderSize front back) used startIndex
  let size := 4 + recordsNum * 22
  let resp := (ioBufSize - size) / 2
  some {
    entries := used
    startIndex := if reqPos = resp then 0
      else if reqPos = resp + 1 then used
      else startIndex
    count := recordsNum
    records := device.lqiRecords device.neighbor.baseNeighborSize 0 recordsNum
    length := size }

def addrHeadersSize : ℕ := 23 + 25 + 14 + 8

/-- The `do` loop of the extended responses, with `len` and `addr_counter`. -/
def addrLoop (reserve len addrCounter : ℕ) : ℕ × ℕ :=
  if len + 2 + reserve + addrHeadersSize < ioBufSize then
    addrLoop reserve (len + 2) (addrCounter + 1)
  else (len + 2, addrCounter + 1)
termination_by ioBufSize - len

/-- The loop over the rows; `ent` goes on only when an address is written. -/
def addrList (device : ReportingDevice) (startIndex : ℕ) : ℕ → ℕ → ℕ → ℕ → List UInt16
  | 0, _, _, _ => []
  | rest + 1, ent, found, addrCounter =>
      let row := device.neighbor.baseNeighbor ent
      if addrCounter = 0 then []
      else if row.used then
        if startIndex ≤ found + 1 then
          (device.addressByRef row.addrRef).2 ::
            device.addrList startIndex rest (ent + 1) (found + 1) (addrCounter - 1)
        else device.addrList startIndex rest ent (found + 1) addrCounter
      else device.addrList startIndex rest ent found addrCounter

/-- The extended response; `numAssocDev` is the field of this name, by the
number of addresses which are to be written. -/
def extendedResponse (device : ReportingDevice) (reserve : ℕ) (numAssocDev : ℕ → ℕ)
    (startIndex : ℕ) : Option (Page UInt16) :=
  let used := device.neighbor.baseNeighborUsed
  let addrCounter := (used + 256 - startIndex) % 256
  if ioBufSize < addrCounter * 2 + addrHeadersSize then
    let (len, addrCounter) := addrLoop reserve 13 0
    some ⟨used, 0, numAssocDev addrCounter,
      device.addrList startIndex neighborTableSize 0 0 addrCounter, len⟩
  else if addrCounter = 0 then none
  else
    some ⟨used, 0, numAssocDev addrCounter,
      device.addrList startIndex neighborTableSize 0 0 addrCounter,
      13 + addrCounter * 2⟩

/-- `zdo_device_nwk_addr_res`: the address is looked for in single requests
only, and without it a unicast request gets an error. -/
def zdoDeviceNwkAddrRes (device : ReportingDevice) (unicast : Bool) (startIndex : ℕ) :
    Option (Page UInt16) :=
  if unicast then none
  else device.extendedResponse 2 (fun _ => device.neighbor.baseNeighborUsed)
    startIndex

def zdoDeviceIeeeAddrRes (device : ReportingDevice) (startIndex : ℕ) :
    Option (Page UInt16) :=
  device.extendedResponse 8 id startIndex

def usedRows (device : ReportingDevice) : List NeighborTblEnt :=
  ((List.range device.neighbor.baseNeighborSize).map
    device.neighbor.baseNeighbor).filter (·.used)

def addresses (device : ReportingDevice) : List UInt16 :=
  device.usedRows.map fun ent => (device.addressByRef ent.addrRef).2

/-- The response to a request is made where its start index lies, which is not
read before the first two bytes are written. -/
def Overlaid (used reqPos startIndex : ℕ) : Prop :=
  let resp := (ioBufSize - (4 + (used - startIndex) * 22)) / 2
  (reqPos = resp ∧ startIndex ≠ 0) ∨ (reqPos = resp + 1 ∧ startIndex ≠ used)

theorem lqiRecords_eq (device : ReportingDevice) (rest i recordsNum : ℕ) :
    device.lqiRecords rest i recordsNum =
      ((((List.range' i rest).map device.neighbor.baseNeighbor).filter
        (·.used)).map device.record).take recordsNum := by
  induction rest generalizing i recordsNum with
  | zero => rw [lqiRecords, List.range'_zero]; exact take_nil.symm
  | succ rest ih =>
    rw [lqiRecords, List.range'_succ, map_cons]
    cases recordsNum with
    | zero => rw [if_pos rfl, take_zero]
    | succ recordsNum =>
      rw [if_neg (Nat.succ_ne_zero _), ih, ih]
      split
      case isTrue hused =>
        rw [filter_cons_of_pos hused, map_cons, take_succ_cons, Nat.add_sub_cancel]
      case isFalse hunused => rw [filter_cons_of_neg hunused]

variable (device : ReportingDevice) (headers front back reqPos : ℕ)

theorem zdoLqiResp_eq
    (hsize : device.neighbor.baseNeighborUsed ≤ neighborTableSize) (s : ℕ) :
    let used := device.neighbor.baseNeighborUsed
    let size := 4 + (used - s) * 22
    let resp := (ioBufSize - size) / 2
    device.zdoLqiResp front back reqPos s =
      some ⟨used, if reqPos = resp then 0 else if reqPos = resp + 1 then used
          else s, used - s,
        (device.usedRows.map device.record).take (used - s), size⟩ := by
  have hmax : ioBufSize / lqiHeaderSize front back = 74 := by
    rw [lqiHeaderSize, if_pos (Nat.succ_ne_zero _)]
    rfl
  rw [neighborTableSize] at hsize
  have hrecords : (if s < device.neighbor.baseNeighborUsed then
      device.neighbor.baseNeighborUsed - s else 0) =
        device.neighbor.baseNeighborUsed - s := by
    split
    case isTrue => rfl
    case isFalse hnot => omega
  have hlt : device.neighbor.baseNeighborUsed - s < 74 := by omega
  rw [zdoLqiResp, lqiRecordsNum, hmax, hrecords, if_pos hlt, lqiRecords_eq,
    usedRows, range_eq_range']

/-- A neighbor table is reported exactly if no row has become free below those
which were ever added, all rows fit one response, and no start index is written
over. -/
theorem reportsRows_zdoLqiResp_iff
    (hsize : device.neighbor.baseNeighborUsed ≤ neighborTableSize) :
    ReportsRows headers (device.usedRows.map device.record)
        (device.zdoLqiResp front back reqPos) ↔
      device.usedRows.length = device.neighbor.baseNeighborUsed ∧
        headers + (4 + device.neighbor.baseNeighborUsed * 22) ≤ ioBufSize ∧
        ∀ s < 256, ¬Overlaid device.neighbor.baseNeighborUsed reqPos s := by
  have hresp := device.zdoLqiResp_eq front back reqPos hsize
  have hlength (n : ℕ) : ((device.usedRows.map device.record).take n).length =
        min n device.usedRows.length := by
    rw [length_take, length_map]
  -- The first response has all rows which are reported at all.
  have hfirst (fuel : ℕ) (hle : device.neighbor.baseNeighborUsed ≤
      device.usedRows.length) :
      collect (device.zdoLqiResp front back reqPos) (fuel + 1) 0 =
        some ((device.usedRows.map device.record).take
          device.neighbor.baseNeighborUsed) := by
    rw [collect, hresp, Option.bind_eq_bind, Option.bind_some, if_pos]
    · rfl
    · rw [hlength, Nat.sub_zero, Nat.min_eq_left hle, Nat.zero_add]
  constructor
  · rintro ⟨⟨fuel, list, hcollect, hperm⟩, hindex, hcount, hfits⟩
    have hcontained := hcount 0 (by decide) _ (hresp 0)
    rw [hlength, Nat.sub_zero] at hcontained
    have hle := hcontained ▸ Nat.min_le_right _ device.usedRows.length
    refine ⟨?_, hfits 0 (by decide) _ (hresp 0), fun s hs hoverlaid => ?_⟩
    · cases fuel with
      | zero => exact absurd hcollect (Option.some_ne_none _).symm
      | succ fuel =>
        obtain rfl := Option.some.inj ((hfirst fuel hle).symm.trans hcollect)
        have hall := hperm.length_eq
        rw [hlength, Nat.min_eq_left hle, length_map] at hall
        exact hall.symm
    · have hkept := hindex s hs _ (hresp s)
      dsimp only at hkept
      rcases hoverlaid with ⟨hpos, hne⟩ | ⟨hpos, hne⟩
      · rw [if_pos hpos] at hkept
        exact hne hkept.symm
      · rw [if_neg (by omega), if_pos hpos] at hkept
        exact hne hkept.symm
  · rintro ⟨hused, hfits, hkept⟩
    have hle := hused.ge
    refine ⟨⟨1, _, hfirst 0 hle, ?_⟩, ?_, ?_, ?_⟩
    · rw [← hused, take_of_length_le (by rw [length_map])]
    · intro s hs page hpage
      obtain rfl := Option.some.inj ((hresp s).symm.trans hpage)
      dsimp only
      split
      case isTrue hpos =>
        by_contra hne
        exact hkept s hs (.inl ⟨hpos, Ne.symm hne⟩)
      case isFalse =>
        split
        case isTrue hpos =>
          by_contra hne
          exact hkept s hs (.inr ⟨hpos, Ne.symm hne⟩)
        case isFalse => rfl
    · intro s _ page hpage
      obtain rfl := Option.some.inj ((hresp s).symm.trans hpage)
      dsimp only
      rw [hlength]
      omega
    · intro s _ page hpage
      obtain rfl := Option.some.inj ((hresp s).symm.trans hpage)
      dsimp only
      omega

theorem startIndex_extendedResponse {reserve : ℕ} {numAssocDev : ℕ → ℕ}
    {s : ℕ} {page : Page UInt16}
    (hpage : page ∈ device.extendedResponse reserve numAssocDev s) :
    page.startIndex = 0 := by
  rw [extendedResponse] at hpage
  split at hpage
  · exact (Option.some.inj hpage) ▸ rfl
  · split at hpage
    · exact absurd hpage (by simp)
    · exact (Option.some.inj hpage) ▸ rfl

theorem not_reportsRows_extendedResponse
    (hsize : device.neighbor.baseNeighborUsed ≤ neighborTableSize)
    (reserve : ℕ) (numAssocDev : ℕ → ℕ) (rows : List UInt16) :
    ¬ReportsRows headers rows (device.extendedResponse reserve numAssocDev) := by
  intro hreports
  rw [neighborTableSize] at hsize
  obtain ⟨s, hs, hpos, hne⟩ : ∃ s < 256, 0 < s ∧
      s ≠ device.neighbor.baseNeighborUsed := by
    by_cases hone : device.neighbor.baseNeighborUsed = 1
    · exact ⟨2, by decide, by decide, by omega⟩
    · exact ⟨1, by decide, by decide, Ne.symm hone⟩
  obtain ⟨page, hpage⟩ : ∃ page, page ∈ device.extendedResponse reserve numAssocDev s := by
    rw [extendedResponse]
    split
    · exact ⟨_, rfl⟩
    · rw [if_neg (by omega)]
      exact ⟨_, rfl⟩
  have hindex := hreports.startIndex s hs page hpage
  rw [device.startIndex_extendedResponse hpage] at hindex
  omega

/-- The neighbor table is reported exactly under the three conditions; the
address lists are for no table. -/
theorem pagedReports_iff (hsize : device.neighbor.baseNeighborUsed ≤ neighborTableSize) :
    (ReportsRows headers (device.usedRows.map device.record)
        (device.zdoLqiResp front back reqPos) ↔
      device.usedRows.length = device.neighbor.baseNeighborUsed ∧
        headers + (4 + device.neighbor.baseNeighborUsed * 22) ≤ ioBufSize ∧
        ∀ s < 256, ¬Overlaid device.neighbor.baseNeighborUsed reqPos s) ∧
    (∀ unicast, ¬ReportsRows headers device.addresses
      (device.zdoDeviceNwkAddrRes unicast)) ∧
    ¬ReportsRows headers device.addresses device.zdoDeviceIeeeAddrRes := by
  refine ⟨device.reportsRows_zdoLqiResp_iff headers front back reqPos hsize,
    fun unicast => ?_,
    device.not_reportsRows_extendedResponse headers hsize 8 id _⟩
  cases unicast with
  | true =>
      rintro ⟨⟨fuel, list, hcollect, _⟩, _⟩
      cases fuel with
      | zero => exact Option.some_ne_none _ hcollect.symm
      | succ fuel => exact Option.some_ne_none _ hcollect.symm
  | false =>
      exact device.not_reportsRows_extendedResponse headers hsize 2
        (fun _ => device.neighbor.baseNeighborUsed) device.addresses

def freedRow : ReportingDevice where
  neighbor := { zbNwkNeighborInit with
    baseNeighbor := fun i => { NeighborTblEnt.zero with used := i = 1 }
    baseNeighborUsed := 2 }
  extPanId := 1
  addressByRef _ := (2, 3)

theorem pagedReports_iff_freedRow : (ReportsRows 56 (freedRow.usedRows.map freedRow.record)
        (freedRow.zdoLqiResp 47 2 26) ↔
      freedRow.usedRows.length = 2 ∧ 56 + (4 + 2 * 22) ≤ ioBufSize ∧
        ∀ s < 256, ¬Overlaid 2 26 s) ∧
    (∀ unicast, ¬ReportsRows 56 freedRow.addresses
      (freedRow.zdoDeviceNwkAddrRes unicast)) ∧
    ¬ReportsRows 56 freedRow.addresses freedRow.zdoDeviceIeeeAddrRes :=
  freedRow.pagedReports_iff 56 47 2 26 (by decide)

/-- Two records are counted, and one is written. -/
theorem not_reportsRows_freedRow : ¬ReportsRows 56 (freedRow.usedRows.map freedRow.record)
      (freedRow.zdoLqiResp 47 2 26) := by
  intro hreports
  exact absurd (hreports.count 0 (by decide) _ rfl) (by decide)

end ReportingDevice

end Zboss
