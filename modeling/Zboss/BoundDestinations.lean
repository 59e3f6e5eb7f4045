import Zboss.AddressTableFrames
import Zboss.ApsHeaderRoundTrip
import Zboss.BindingTableRefinement

/-!
# Sending to bound devices

The addressing of `zb_apsde_data_request` by the binding table.  The search
ends at the first row of the source, also at one of a group, and looks at the
rows at 0 of empty tables; if it finds nothing, the request is confirmed with
the status which the buffer has.
-/

namespace Zboss

open Option PackedArray TransitionSystem

def apsAddrModeDstAddrEndpNotPresent : UInt8 := 0

/-- `zb_apsde_data_req_t` with `ZB_APS_ADDR_MODE_DST_ADDR_ENDP_NOT_PRESENT`. -/
structure BoundDataReq where
  srcEndpoint : UInt8
  clusterid : UInt16
  profileid : UInt16
  optAckTx : Bool

/-- What the search has written into the request. -/
def BoundDataReq.addressedTo (req : BoundDataReq) (dstAddr : ℕ)
    (dstEndpoint : UInt8) : ApsdeHdrReq where
  addrMode := apsAddrModeDstAddrEndpNotPresent
  addrShort := UInt16.ofNat dstAddr
  dstEndpoint := dstEndpoint
  clusterid := req.clusterid
  profileid := req.profileid
  srcEndpoint := req.srcEndpoint
  optAckTx := req.optAckTx

def BoundDataReq.unaddressed (req : BoundDataReq) (dst : ApsDst) : ApsdeDataReq where
  dst := dst
  srcEndpoint := req.srcEndpoint.toNat
  clusterid := req.clusterid.toNat
  optAckTx := req.optAckTx

structure DstSearch where
  dst : Option (ℕ × UInt8)
  rows : List ℕ

/-- `do ... while (i < dst_n_elements)`: the rows read from `i` on, and the
destination at which the loop ends. -/
def searchDstRows (b : ApsBindingTable) (indSrc : ℕ) : ℕ → ℕ → List ℕ × Option ApsBindDst
  | 0, _ => ([], none)
  | rounds + 1, i =>
      if (b.dstTable i).srcTableIndex = indSrc then ([i], some (b.dstTable i).dst)
      else if i + 1 < b.dstNElements then
        let (rows, dst) := searchDstRows b indSrc rounds (i + 1)
        (i :: rows, dst)
      else ([i], none)

structure BindingSender where
  addr : AddrGlobals
  shortAddress : ℕ
  binding : ApsBindingTable
  aps : ApsGlobals

namespace BindingSender

def zbSearchDstInBindingTable (sender : BindingSender) (req : BoundDataReq) :
    Option (AddrGlobals × DstSearch) := do
  let (addr, ret) ←
    zbAddressByShort sender.addr sender.shortAddress false false
  match ret with
  | .error _ => some (addr, ⟨none, []⟩)
  | .ok addrRef =>
      match apsFindSrcRef sender.binding ⟨addrRef, req.srcEndpoint, req.clusterid⟩ with
      | none => some (addr, ⟨none, []⟩)
      | some indSrc =>
          match searchDstRows sender.binding indSrc
              (sender.binding.dstNElements + 1) 0 with
          | (rows, some (.longAddr dstAddr dstEnd)) =>
              some (addr, ⟨some (dstAddr, dstEnd), rows⟩)
          | (rows, _) => some (addr, ⟨none, rows⟩)

def requestTo (addr : AddrGlobals) (req : BoundDataReq) (dstRef : ℕ)
    (dstEndpoint : UInt8) : ApsdeDataReq :=
  let dstAddr := (addr.addrMap dstRef).addr
  if dstAddr = unknownShort then req.unaddressed .unknownPeer
  else (req.addressedTo dstAddr dstEndpoint).apsdeDataReq

def apsdeDataRequest (sender : BindingSender) (param : ℕ) (req : BoundDataReq)
    (alarmAccepted : Bool) : Option (ApsGlobals × List ApsOutput) :=
  (sender.zbSearchDstInBindingTable req).map fun (addr, search) =>
    zbApsdeDataRequest sender.aps param (match search.dst with
        | some (dstRef, dstEndpoint) => requestTo addr req dstRef dstEndpoint
        | none => req.unaddressed .noBoundDevice)
      alarmAccepted

/-- The header of the packet, if there is a packet. -/
def hdr (sender : BindingSender) (req : BoundDataReq) : Option (List UInt8) := do
  let (addr, search) ← sender.zbSearchDstInBindingTable req
  let (dstRef, dstEndpoint) ← search.dst
  let dstAddr := (addr.addrMap dstRef).addr
  if dstAddr = unknownShort then none
  else (req.addressedTo dstAddr dstEndpoint).hdr sender.aps.apsCounter

def source (sender : BindingSender) (req : BoundDataReq) :
    Option ApsBindSrcTable :=
  (shortSearch sender.addr sender.shortAddress).map (⟨·, req.srcEndpoint, req.clusterid⟩)

def Bound (sender : BindingSender) (req : BoundDataReq) (dstRef : ℕ)
    (dstEndpoint : UInt8) : Prop :=
  ∃ src ∈ sender.source req, (src, .longAddr dstRef dstEndpoint) ∈ sender.binding.pairs

/-- The request goes to a device bound to its source, and its header names the
endpoint which is bound.  If there is none, it is only confirmed, and the status
of the buffer is not that of a success.  The search stays in the table. -/
structure SendsToBound (sender : BindingSender) (param : ℕ)
    (req : BoundDataReq) (status : UInt8) : Prop where
  bound : (∃ dstRef dstEndpoint, sender.Bound req dstRef dstEndpoint) →
    ∃ dstRef dstEndpoint, sender.Bound req dstRef dstEndpoint ∧
      (∃ addr search, sender.zbSearchDstInBindingTable req = some (addr, search) ∧
        search.dst = some (dstRef, dstEndpoint)) ∧
      (∀ hdr ∈ sender.hdr req, hdr[1]? = some dstEndpoint) ∧
      ∀ accepted, sender.apsdeDataRequest param req accepted =
        some (zbApsdeDataRequest sender.aps param
          (requestTo sender.addr req dstRef dstEndpoint) accepted)
  unbound : (¬ ∃ dstRef dstEndpoint, sender.Bound req dstRef dstEndpoint) →
    status ≠ 0 ∧ ∀ accepted, sender.apsdeDataRequest param req accepted =
      some (sender.aps, [.dataConfirm param none])
  rows : ∀ addr search, sender.zbSearchDstInBindingTable req = some (addr, search) →
      ∀ i ∈ search.rows, i < sender.binding.dstNElements

/-- An empty table has no row left at 0 for the source; the first row of a
source which is bound to a device is one of a device; if none is bound, the
buffer has the status of a failure. -/
structure FindsBound (sender : BindingSender) (req : BoundDataReq)
    (status : UInt8) : Prop where
  fresh : sender.binding.srcNElements = 0 →
    ∀ src ∈ sender.source req, sender.binding.srcTable 0 ≠ src
  first : (∃ dstRef dstEndpoint, sender.Bound req dstRef dstEndpoint) →
    ∀ src ∈ sender.source req, ∀ pair,
      sender.binding.pairList.find? (·.1 = src) = some pair →
        ∃ dstRef dstEndpoint, pair.2 = .longAddr dstRef dstEndpoint
  failure : (¬ ∃ dstRef dstEndpoint, sender.Bound req dstRef dstEndpoint) → status ≠ 0

end BindingSender

section Search

variable {b : ApsBindingTable} {s : ℕ}

theorem searchDstRows_spec {rounds i : ℕ} (hrounds : b.dstNElements < i + rounds)
    (hrow : ∃ k, i ≤ k ∧ k < b.dstNElements ∧ (b.dstTable k).srcTableIndex = s) :
    ∃ rows k, searchDstRows b s rounds i = (rows, some (b.dstTable k).dst) ∧
      (∀ j ∈ rows, j < b.dstNElements) ∧ i ≤ k ∧ k < b.dstNElements ∧
      (b.dstTable k).srcTableIndex = s ∧
      ∀ j, i ≤ j → j < k → (b.dstTable j).srcTableIndex ≠ s := by
  induction rounds generalizing i with
  | zero => omega
  | succ rounds ih =>
    obtain ⟨k, hik, hk, hindex⟩ := hrow
    rw [searchDstRows]
    by_cases hhere : (b.dstTable i).srcTableIndex = s
    · rw [if_pos hhere]
      refine ⟨[i], i, rfl, ?_, le_refl i, by omega, hhere, by omega⟩
      intro j hj
      rw [List.mem_singleton.mp hj]
      omega
    · have hnext : i ≠ k := by
        rintro rfl
        exact hhere hindex
      rw [if_neg hhere, if_pos (by omega)]
      obtain ⟨rows, first, hsearch, hrows, hle, hlt, hfirst, hbefore⟩ :=
        ih (i := i + 1) (by omega) ⟨k, by omega, hk, hindex⟩
      rw [hsearch]
      refine ⟨i :: rows, first, rfl, ?_, by omega, hlt, hfirst, ?_⟩
      · intro j hj
        rcases List.mem_cons.mp hj with rfl | hj
        · omega
        · exact hrows j hj
      · intro j hj hjk
        rcases Nat.eq_or_lt_of_le hj with rfl | hlt'
        · exact hhere
        · exact hbefore j hlt' hjk

theorem ApsBindingTable.WellFormed.searchDstRows
    (hwf : b.WellFormed) (hs : s < b.srcNElements) :
    ∃ rows dst, Zboss.searchDstRows b s (b.dstNElements + 1) 0 =
        (rows, some dst) ∧ (∀ i ∈ rows, i < b.dstNElements) ∧
      b.pairList.find? (·.1 = b.srcTable s) = some (b.srcTable s, dst) := by
  obtain ⟨row, hrow, hindex⟩ := hwf.inhabited s hs
  obtain ⟨k, hk, rfl⟩ := mem_live.mp hrow
  obtain ⟨rows, first, hsearch, hrows, -, hlt, hfirst, hbefore⟩ :=
    searchDstRows_spec (b := b) (s := s) (i := 0)
      (by omega : b.dstNElements < 0 + (b.dstNElements + 1))
      ⟨k, Nat.zero_le k, hk, hindex⟩
  refine ⟨rows, _, hsearch, hrows, ?_⟩
  have hlength : b.pairList.length = b.dstNElements := by
    simp [pairList, IndexedRows.resolve, dstRows]
  have hget (j : ℕ) (hj : j < b.pairList.length) : b.pairList[j] =
      (b.srcTable (b.dstTable j).srcTableIndex, (b.dstTable j).dst) := by
    simp [pairList, IndexedRows.resolve, dstRows]
  rw [List.find?_eq_some_iff_getElem]
  refine ⟨by simp, first, by omega, ?_, fun j hj => ?_⟩
  · rw [hget, hfirst]
  · have hlive : b.dstTable j ∈ b.dstRows := mem_live.mpr ⟨j, by omega, rfl⟩
    have hne : b.srcTable (b.dstTable j).srcTableIndex ≠ b.srcTable s := by
      intro heq
      exact hbefore j (Nat.zero_le j) hj (nodup_live_iff.mp hwf.distinct _ _
        (hwf.index _ hlive) hs heq)
    rw [hget]
    simpa using hne

end Search

namespace BindingSender

variable {sender : BindingSender} {param : ℕ} {req : BoundDataReq} {status : UInt8}

theorem search_of_unknown (hown : shortSearch sender.addr sender.shortAddress = none) :
    sender.zbSearchDstInBindingTable req = some (sender.addr, ⟨none, []⟩) := by
  rw [zbSearchDstInBindingTable, zbAddressByShort, hown]
  rfl

theorem search_of_known {own : ℕ}
    (hown : shortSearch sender.addr sender.shortAddress = some own) :
    sender.zbSearchDstInBindingTable req = match apsFindSrcRef sender.binding
          ⟨own, req.srcEndpoint, req.clusterid⟩ with
      | none => some (sender.addr.markClock own, ⟨none, []⟩)
      | some indSrc =>
        match searchDstRows sender.binding indSrc (sender.binding.dstNElements + 1) 0 with
        | (rows, some (.longAddr dstAddr dstEnd)) =>
          some (sender.addr.markClock own, ⟨some (dstAddr, dstEnd), rows⟩)
        | (rows, _) => some (sender.addr.markClock own, ⟨none, rows⟩) := by
  rw [zbSearchDstInBindingTable, zbAddressByShort, hown]
  rfl

theorem requestTo_markClock (addr : AddrGlobals) (own dstRef : ℕ) (dstEndpoint : UInt8) :
    requestTo (addr.markClock own) req dstRef dstEndpoint =
      requestTo addr req dstRef dstEndpoint := by
  have hshort : ((addr.markClock own).addrMap dstRef).addr = (addr.addrMap dstRef).addr :=
    ((sameTable_markClock addr own).entry dstRef).addr
  rw [requestTo, requestTo, hshort]

theorem mem_pairs {pair : ApsBindSrcTable × ApsBindDst} :
    pair ∈ sender.binding.pairs ↔ pair ∈ sender.binding.pairList :=
  Multiset.mem_coe

structure Searched (sender : BindingSender) (req : BoundDataReq)
    (addr : AddrGlobals) (search : DstSearch) : Prop where
  call : sender.zbSearchDstInBindingTable req = some (addr, search)
  same : ∀ dstRef dstEndpoint, requestTo addr req dstRef dstEndpoint =
    requestTo sender.addr req dstRef dstEndpoint
  rows : ∀ i ∈ search.rows, i < sender.binding.dstNElements
  found : ∀ dstRef dstEndpoint, search.dst = some (dstRef, dstEndpoint) ↔
    ∃ src ∈ sender.source req, sender.binding.pairList.find? (·.1 = src) =
        some (src, .longAddr dstRef dstEndpoint)

theorem find?_pairList_eq_none {b : ApsBindingTable} {src : ApsBindSrcTable}
    (hwf : b.WellFormed)
    (hnone : ∀ l, l < b.srcNElements → b.srcTable l ≠ src) :
    b.pairList.find? (·.1 = src) = none := by
  rw [List.find?_eq_none]
  intro pair hpair
  obtain ⟨row, hrow, hsrc, -⟩ := IndexedRows.mem_resolve.mp hpair
  have hne := hnone _ (hwf.index row hrow)
  rw [hsrc] at hne
  simpa using hne

theorem exists_searched (hwf : sender.binding.WellFormed)
    (hfresh : sender.binding.srcNElements = 0 →
      ∀ src ∈ sender.source req, sender.binding.srcTable 0 ≠ src) :
    ∃ addr search, sender.Searched req addr search := by
  cases hown : shortSearch sender.addr sender.shortAddress with
  | none =>
    refine ⟨_, _, search_of_unknown hown, fun _ _ => rfl, nofun, ?_⟩
    intro dstRef dstEndpoint
    refine iff_of_false nofun ?_
    rintro ⟨src, hsrc, -⟩
    rw [source, hown] at hsrc
    contradiction
  | some own =>
    have hsource : sender.source req =
        some ⟨own, req.srcEndpoint, req.clusterid⟩ := by
      rw [source, hown]
      rfl
    have hcall := @search_of_known sender req own hown
    cases hfind : apsFindSrcRef sender.binding ⟨own, req.srcEndpoint, req.clusterid⟩ with
    | none =>
      rw [hfind] at hcall
      have hnone := find?_pairList_eq_none hwf fun l hl =>
        apsFindSrcRef_eq_none hfind l (by omega)
      refine ⟨_, _, hcall, requestTo_markClock _ _, nofun, ?_⟩
      intro dstRef dstEndpoint
      refine iff_of_false nofun ?_
      rintro ⟨src, hsrc, hpair⟩
      rw [hsource] at hsrc
      obtain rfl := some.inj hsrc
      rw [hnone] at hpair
      contradiction
    | some s =>
      rw [hfind] at hcall
      obtain ⟨hlt, hrow⟩ := apsFindSrcRef_eq_some hfind
      have hs : s < sender.binding.srcNElements := by
        by_contra hnot
        have hempty : sender.binding.srcNElements = 0 := by omega
        have hzero : s = 0 := by omega
        rw [hzero] at hrow
        exact hfresh hempty _ hsource hrow
      obtain ⟨rows, dst, hsearch, hrows, hpair⟩ := hwf.searchDstRows hs
      rw [hrow] at hpair
      dsimp only at hcall
      rw [hsearch] at hcall
      cases dst with
      | groupAddr groupAddr =>
        refine ⟨_, _, hcall, requestTo_markClock _ _, hrows, ?_⟩
        intro dstRef dstEndpoint
        refine iff_of_false nofun ?_
        rintro ⟨src, hsrc, hlong⟩
        rw [hsource] at hsrc
        obtain rfl := some.inj hsrc
        rw [hpair] at hlong
        exact nomatch (some_pair_inj hlong).2
      | longAddr dstAddr dstEnd =>
        refine ⟨_, _, hcall, requestTo_markClock _ _, hrows, ?_⟩
        intro dstRef dstEndpoint
        rw [hsource]
        simp [hpair]

variable {addr : AddrGlobals} {search : DstSearch}

section

variable (hsearched : sender.Searched req addr search)

include hsearched

theorem Searched.apsdeDataRequest (accepted : Bool) :
    sender.apsdeDataRequest param req accepted = some (zbApsdeDataRequest sender.aps param
        (match search.dst with
          | some (dstRef, dstEndpoint) => requestTo sender.addr req dstRef dstEndpoint
          | none => req.unaddressed .noBoundDevice)
        accepted) := by
  rw [BindingSender.apsdeDataRequest, hsearched.call, map_some]
  dsimp only
  cases hdst : search.dst with
  | none => rfl
  | some dst =>
    dsimp only
    rw [hsearched.same]

theorem Searched.hdr_endpoint {dstRef : ℕ} {dstEndpoint : UInt8}
    (hdst : search.dst = some (dstRef, dstEndpoint)) :
    ∀ hdr ∈ sender.hdr req, hdr[1]? = some dstEndpoint := by
  intro bytes hbytes
  rw [hdr, hsearched.call, bind_eq_bind, bind_some] at hbytes
  dsimp only at hbytes
  rw [hdst, bind_eq_bind, bind_some] at hbytes
  dsimp only at hbytes
  split at hbytes
  · contradiction
  · rw [ApsdeHdrReq.hdr_eq_bytes] at hbytes
    rw [← some.inj hbytes]
    rfl

end

theorem rows_of_stale {own : ℕ}
    (hown : shortSearch sender.addr sender.shortAddress = some own)
    (hsrc : sender.binding.srcNElements = 0)
    (hdst : sender.binding.dstNElements = 0)
    (hstale : sender.binding.srcTable 0 = ⟨own, req.srcEndpoint, req.clusterid⟩) :
    ∃ addr search, sender.zbSearchDstInBindingTable req =
      some (addr, search) ∧ search.rows = [0] := by
  have hfind : apsFindSrcRef sender.binding
      ⟨own, req.srcEndpoint, req.clusterid⟩ = some 0 := by
    have hzero : List.range (max 1 sender.binding.srcNElements) = [0] := by
      rw [hsrc]
      rfl
    rw [apsFindSrcRef, hzero]
    simpa using hstale
  have hcall := @search_of_known sender req own hown
  rw [hfind, hdst] at hcall
  dsimp only at hcall
  rw [searchDstRows, hdst] at hcall
  by_cases hindex : (sender.binding.dstTable 0).srcTableIndex = 0
  · rw [if_pos hindex] at hcall
    cases hrow : (sender.binding.dstTable 0).dst with
    | groupAddr groupAddr =>
      rw [hrow] at hcall
      exact ⟨_, _, hcall, rfl⟩
    | longAddr dstAddr dstEnd =>
      rw [hrow] at hcall
      exact ⟨_, _, hcall, rfl⟩
  · rw [if_neg hindex, if_neg (Nat.not_lt_zero _)] at hcall
    exact ⟨_, _, hcall, rfl⟩

theorem SendsToBound.fresh (hwf : sender.binding.WellFormed)
    (hsends : sender.SendsToBound param req status)
    (hempty : sender.binding.srcNElements = 0) :
    ∀ src ∈ sender.source req, sender.binding.srcTable 0 ≠ src := by
  intro src hsrc hstale
  obtain ⟨own, hown, rfl⟩ := map_eq_some_iff.mp hsrc
  have hdst := hwf.dst_empty hempty
  obtain ⟨addr, search, hcall, hrows⟩ := rows_of_stale hown hempty hdst hstale
  have hlt := hsends.rows addr search hcall 0 (by rw [hrows]; simp)
  rw [hdst] at hlt
  exact Nat.not_lt_zero 0 hlt

theorem bound_of_found {src : ApsBindSrcTable} {dstRef : ℕ}
    {dstEndpoint : UInt8} (hsrc : src ∈ sender.source req)
    (hfound : sender.binding.pairList.find? (·.1 = src) =
      some (src, .longAddr dstRef dstEndpoint)) :
    sender.Bound req dstRef dstEndpoint :=
  ⟨src, hsrc, mem_pairs.mpr (List.mem_of_find?_eq_some hfound)⟩

theorem sendsToBound_iff_findsBound (hwf : sender.binding.WellFormed) :
    sender.SendsToBound param req status ↔ sender.FindsBound req status := by
  constructor
  · intro hsends
    have hfresh := hsends.fresh hwf
    obtain ⟨addr, search, hsearched⟩ := exists_searched hwf hfresh
    refine ⟨hfresh, fun hbound src hsrc pair hpair => ?_,
      fun hnot => (hsends.unbound hnot).1⟩
    obtain ⟨dstRef, dstEndpoint, -, ⟨addr', search', hcall, hdst⟩, -⟩ :=
      hsends.bound hbound
    rw [hsearched.call] at hcall
    obtain ⟨-, rfl⟩ := some_pair_inj hcall
    obtain ⟨src', hsrc', hfirst⟩ := (hsearched.found dstRef dstEndpoint).mp hdst
    obtain rfl : src = src' := Option.mem_unique hsrc hsrc'
    rw [hpair] at hfirst
    exact ⟨dstRef, dstEndpoint, congrArg Prod.snd (some.inj hfirst)⟩
  · intro hfinds
    obtain ⟨addr, search, hsearched⟩ := exists_searched hwf hfinds.fresh
    refine ⟨fun hbound => ?_, fun hnot => ⟨hfinds.failure hnot, ?_⟩, ?_⟩
    · obtain ⟨ref, endpoint, src, hsrc, hmem⟩ := id hbound
      have hsome : (sender.binding.pairList.find? (·.1 = src)).isSome :=
        List.find?_isSome.mpr ⟨_, mem_pairs.mp hmem, by simp⟩
      obtain ⟨pair, hpair⟩ := isSome_iff_exists.mp hsome
      obtain ⟨dstRef, dstEndpoint, hlong⟩ := hfinds.first hbound src hsrc pair hpair
      have hsame : pair.1 = src := by simpa using List.find?_some hpair
      obtain rfl : pair = (src, .longAddr dstRef dstEndpoint) := Prod.ext hsame hlong
      have hdst := (hsearched.found dstRef dstEndpoint).mpr ⟨src, hsrc, hpair⟩
      refine ⟨dstRef, dstEndpoint, bound_of_found hsrc hpair,
        ⟨addr, search, hsearched.call, hdst⟩, hsearched.hdr_endpoint hdst,
        fun accepted => ?_⟩
      rw [hsearched.apsdeDataRequest, hdst]
    · intro accepted
      cases hdst : search.dst with
      | none =>
        rw [hsearched.apsdeDataRequest, hdst]
        rfl
      | some dst =>
        obtain ⟨src, hsrc, hfirst⟩ := (hsearched.found dst.1 dst.2).mp hdst
        exact absurd ⟨dst.1, dst.2, bound_of_found hsrc hfirst⟩ hnot
    · intro addr' search' hcall
      rw [hsearched.call] at hcall
      obtain ⟨-, rfl⟩ := some_pair_inj hcall
      exact hsearched.rows

def bindingTableStep (b : ApsBindingTable) (input : AddrGlobals × BindingCall) :
    Option ApsBindingTable :=
  (input.2.apply ⟨input.1, b⟩).map BindingState.binding

theorem wellFormed_bindingTableStep {b next : ApsBindingTable}
    {input : AddrGlobals × BindingCall} (hwf : b.WellFormed)
    (hsafe : input.2.Safe ⟨input.1, b⟩)
    (hstep : bindingTableStep b input = some next) : next.WellFormed := by
  obtain ⟨state, happly, rfl⟩ := map_eq_some_iff.mp hstep
  exact ((BindingCall.correct_iff hwf input.2).mpr hsafe).wellFormed happly

def SafeRequest (b : ApsBindingTable) (input : AddrGlobals × BindingCall) : Prop :=
  input.2.Safe ⟨input.1, b⟩

instance (b : ApsBindingTable) (input : AddrGlobals × BindingCall) :
    Decidable (SafeRequest b input) :=
  inferInstanceAs (Decidable (input.2.Safe _))

theorem wellFormed_of_requests {start last : ApsBindingTable}
    (hwf : start.WellFormed) {calls : List (AddrGlobals × BindingCall)}
    (hsafe : AlongRun bindingTableStep SafeRequest start calls)
    (hrun : run bindingTableStep start calls = some last) :
    last.WellFormed :=
  invariant_of_run (fun _ _ _ hwf hsafe hstep =>
    wellFormed_bindingTableStep hwf hsafe hstep) hwf hsafe hrun

/-- In every table which safe requests have left, a request reaches a device bound
to its source exactly if the search finds one. -/
theorem sendsToBound_iff (start : ApsBindingTable)
    (hsrc : start.srcNElements = 0) (hdst : start.dstNElements = 0)
    (calls : List (AddrGlobals × BindingCall))
    (hsafe : AlongRun bindingTableStep SafeRequest start calls)
    (sender : BindingSender)
    (hrun : run bindingTableStep start calls = some sender.binding)
    (param : ℕ) (req : BoundDataReq) (status : UInt8) :
    sender.SendsToBound param req status ↔ sender.FindsBound req status :=
  sendsToBound_iff_findsBound
    (wellFormed_of_requests (wellFormed_of_empty hsrc hdst) hsafe hrun)

/-- A device with the short address 0, whose entry of the address table is the
one at 82. -/
def sample (calls : List BindingCall) : BindingSender where
  addr :=
    { AddrGlobals.zeroed with
      shortSorted := fun _ => 82
      nSortedElements := 1 }
  shortAddress := 0
  binding := (run bindingTableStep .zeroed (calls.map (.zeroed, ·))).getD .zeroed
  aps := zbApsInit 0

def sampleDevice : ApsmeBindingReq where
  srcAddr := ⟨⟨1, 2, 3⟩, ⟨4, 5, 6, 7, 8⟩⟩
  srcEndpoint := 1
  clusterid := 6
  addrMode := apsAddrMode64EndpPresent
  dstAddrLong := ⟨⟨1, 2, 3⟩, ⟨4, 5, 6, 7, 9⟩⟩
  dstAddrShort := 0
  dstEndpoint := 10

def sampleReq : BoundDataReq := ⟨1, 6, 0x104, false⟩

theorem run_sample {calls : List BindingCall} (hsome : (run bindingTableStep .zeroed
      (calls.map (.zeroed, ·))).isSome = true) :
    run bindingTableStep .zeroed (calls.map (.zeroed, ·)) =
      some (sample calls).binding := by
  rw [sample, ← Option.get_eq_getD _]
  exact (Option.some_get hsome).symm

theorem source_sample (calls : List BindingCall) :
    (sample calls).source sampleReq = some ⟨82, 1, 6⟩ := rfl

/-- Only a device is bound. -/
theorem sendsToBound_iff_device :
    (sample [.bind sampleDevice]).SendsToBound 0 sampleReq 0 := by
  refine (sendsToBound_iff _ rfl rfl _ (by decide +kernel) _
    (run_sample (by decide +kernel)) 0 sampleReq 0).mpr ⟨?_, ?_, ?_⟩
  · intro hempty
    exact absurd hempty (by decide +kernel)
  · intro _ src hsrc pair hpair
    rw [source_sample] at hsrc
    obtain rfl := some.inj hsrc
    have hfirst : (sample [.bind sampleDevice]).binding.pairList.find?
        (·.1 = ⟨82, 1, 6⟩) = some (⟨82, 1, 6⟩, .longAddr 83 10) := by
      decide +kernel
    obtain rfl := some.inj (hfirst.symm.trans hpair)
    exact ⟨83, 10, rfl⟩
  · intro hnot
    refine absurd ⟨83, 10, _, source_sample _, ?_⟩ hnot
    decide +kernel

/-- A group is bound before the device. -/
theorem not_sendsToBound_group :
    ¬ (sample [.bind (sampleBinding 1), .bind sampleDevice]).SendsToBound 0
      sampleReq 1 := by
  have hwf := wellFormed_of_requests (wellFormed_of_empty rfl rfl)
    (by decide +kernel) (@run_sample [.bind (sampleBinding 1), .bind sampleDevice]
      (by decide +kernel))
  rw [sendsToBound_iff_findsBound hwf]
  intro hfinds
  have hbound : (⟨82, 1, 6⟩, ApsBindDst.longAddr 83 10) ∈
      (sample [.bind (sampleBinding 1), .bind sampleDevice]).binding.pairs := by
    decide +kernel
  have hfirst : (sample [.bind (sampleBinding 1),
      .bind sampleDevice]).binding.pairList.find? (·.1 = ⟨82, 1, 6⟩) =
        some (⟨82, 1, 6⟩, .groupAddr 1) := by
    decide +kernel
  obtain ⟨dstRef, dstEndpoint, hlong⟩ := hfinds.first
    ⟨83, 10, _, source_sample _, hbound⟩ _ (source_sample _) _ hfirst
  contradiction

end BindingSender

end Zboss
