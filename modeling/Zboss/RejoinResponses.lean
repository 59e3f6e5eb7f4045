import Zboss.JoinProcedures

/-!
# Genuine rejoin responses

The long addresses of a network header are optional, and the fields of
`zb_nwk_hdr_t` stand where both are present.  `zb_nlme_rejoin_response` finds
the source of a response in the right place when it records the parent, but
not when it compares the source with the parent.
-/

namespace Zboss

open Option

/-- `ZB_NWK_FRAMECTL_GET_DESTINATION_IEEE` -/
def nwkDestinationIeee (fctl : UInt8) : Bool := (fctl >>> 3) &&& 1 ≠ 0

/-- `ZB_NWK_FRAMECTL_GET_SOURCE_IEEE` -/
def nwkSourceIeee (fctl : UInt8) : Bool := (fctl >>> 4) &&& 1 ≠ 0

def ieeeAt (mem : ℕ → UInt8) (pos : ℕ) : IeeeAddr :=
  ⟨⟨mem pos, mem (pos + 1), mem (pos + 2)⟩,
    ⟨mem (pos + 3), mem (pos + 4), mem (pos + 5), mem (pos + 6), mem (pos + 7)⟩⟩

/-- `ZB_NWK_FRAMECTL_SET_SRC_DEST_IEEE` and `ZB_NWK_FRAMECTL_SET_SECURITY` on
a zero byte. -/
def nwkFctlFirst (source destination secured : Bool) : UInt8 :=
  (if destination then 8 else 0) ||| (if source then 16 else 0) |||
    (if secured then 2 else 0)

/-- The header which `nwk_alloc_and_fill_hdr` writes, up to the addresses -/
def nwkAllocAndFillHdr (fctl : UInt8) (dstAddr srcAddr : ℕ) (seqNum : UInt8)
    (srcIeeeAddr dstIeeeAddr : Option IeeeAddr) (isSecured : Bool) :
    List UInt8 :=
  [fctl, nwkFctlFirst srcIeeeAddr.isSome dstIeeeAddr.isSome isSecured] ++
    htole16 dstAddr ++ htole16 srcAddr ++ [1, seqNum] ++
    match srcIeeeAddr, dstIeeeAddr with
    | some src, some dst => dst.toBytes ++ src.toBytes
    | none, some dst => dst.toBytes
    | some src, none => src.toBytes
    | none, none => []

def carriedDestination (mem : ℕ → UInt8) : Option IeeeAddr :=
  if nwkDestinationIeee (mem 1) then some (ieeeAt mem 8) else none

/-- The source address which the frame carries: it stands behind the
destination address. -/
def carriedSource (mem : ℕ → UInt8) : Option IeeeAddr :=
  if nwkSourceIeee (mem 1) then
    some (ieeeAt mem (if nwkDestinationIeee (mem 1) then 16 else 8))
  else none

def rejoinResponseAt (mem : ℕ → UInt8) : RejoinResponseFrame :=
  let payload := zbNwkHdrSize (mem 1) + 1
  { networkAddr := letoh16 (mem payload) (mem (payload + 1))
    success := mem (payload + 2) = 0
    sourceIeee := nwkSourceIeee (mem 1)
    destinationIeee := nwkDestinationIeee (mem 1)
    dstIeeeAddr := ieeeAt mem 8
    srcIeeeAddr := ieeeAt mem 16 }

theorem carriedSource_eq_some {mem : ℕ → UInt8} (hsource : nwkSourceIeee (mem 1) = true) :
    carriedSource mem =
      some (JoinDevice.responderIeee (rejoinResponseAt mem)) := by
  rw [carriedSource, if_pos hsource, JoinDevice.responderIeee, rejoinResponseAt]
  split <;> rfl

def RefusesAddress (g : AddrGlobals) (a : IeeeAddr) (s : ℕ) : Prop :=
  ∃ g₁ c, zbIeeeAddrCompress g a = some (g₁, c) ∧ shortSearch g₁ s = none ∧
    ieeeSearch g₁ c = none ∧ freeEntry g₁ (some c) = none

theorem RefusesAddress.zbAddressUpdate
    {g : AddrGlobals} {a : IeeeAddr} {s : ℕ} (lock : Bool)
    (hrefuses : RefusesAddress g a s) :
    ∃ g', zbAddressUpdate g a s lock = some (g', .error .overflow) := by
  obtain ⟨g₁, c, hcompress, hshort, hlong, hfree⟩ := hrefuses
  have hadd : addrAdd g₁ (some c) s = some (g₁, .error .overflow) := by
    simp only [addrAdd, hfree]
  have hlock : lockResult lock g₁ (.error .overflow) =
      some (g₁, .error .overflow) := by
    cases lock <;> rfl
  refine ⟨g₁, ?_⟩
  rw [Zboss.zbAddressUpdate, hcompress]
  simp only [bind_eq_bind, bind_some, hshort, hlong, updateTarget, hadd, hlock]

theorem zbAddressUpdate_writes {g g' : AddrGlobals} {a : IeeeAddr} {s : ℕ} {lock : Bool}
    {ret : Except RetError ℕ}
    (hcall : zbAddressUpdate g a s lock = some (g', ret)) :
    RefusesAddress g a s ∨ ∃ ref, ret = .ok ref ∧ entryIeee g' ref = a ∧
        (g'.addrMap ref).addr = s := by
  obtain ⟨g₁, c, hcompress, hcases⟩ := zbAddressUpdate_eq_some hcall
  have hin := compressedIn_of_zbIeeeAddrCompress hcompress
  rcases hcases with ⟨g₂, ref, g₃, htarget, hwritten, rfl, hlock⟩ |
    ⟨hshort, hlong, g₂, ret', hadd, hlock⟩
  · right
    obtain ⟨removed, -, -, rfl⟩ := updateTarget_merge htarget
    have hslots := (deleteRef_manufacturers g₁ removed).2
    have hsame := sameTranslation_lockResult hlock
    have hentry : g₃.addrMap ref = _ :=
      (congrFun hwritten.addrMap ref).trans (Function.update_self ..)
    refine ⟨ref, rfl, ?_, ?_⟩
    · rw [entryIeee, (hsame.entry ref).ieeeAddr, hentry, zbIeeeAddrDecompress,
        hsame.devManufacturer, hwritten.devManufacturer, hslots, hin.slot,
        hin.deviceId]
    · rw [(hsame.entry ref).addr, hentry]
  · obtain ⟨rfl, -⟩ := lockResult_eq_some hlock
    rcases addrAdd_eq_some hadd with ⟨hfree, -, -⟩ | ⟨i, rfl, hadded⟩
    · exact Or.inl ⟨g₁, c, hcompress, hshort, hlong, hfree⟩
    · right
      have hsame := sameTranslation_lockResult hlock
      refine ⟨i, rfl, ?_, ?_⟩
      · rw [entryIeee, (hsame.entry i).ieeeAddr, hadded.ieeeAddr,
          zbIeeeAddrDecompress, hsame.devManufacturer, hadded.devManufacturer,
          getD_some, hin.slot, hin.deviceId]
      · rw [(hsame.entry i).addr, hadded.addr]

/-! ## Responses -/

namespace JoinDevice

variable (dev : JoinDevice) (p : ℕ) (mem : ℕ → UInt8)

/-- The long address in the entry of the parent, which is zero if it is not
known. -/
def chosenIeee : Option IeeeAddr :=
  let c := (dev.zg.neighbor.extNeighbor p).longAddr
  let addr := zbIeeeAddrDecompress dev.zg.addr c
  if c = .zero ∨ addr = .zero then none else some addr

structure AdmitsDevice : Prop where
  success : (rejoinResponseAt mem).success = true
  assigned : nwkIsAddressBroadcast (rejoinResponseAt mem).networkAddr = false
  destination : ∀ addr ∈ carriedDestination mem, addr = dev.zg.extendedAddress

structure GenuineResponse : Prop extends dev.AdmitsDevice mem where
  source : ∀ addr ∈ dev.chosenIeee p, carriedSource mem = some addr

def Accepts (extPanId : ExtPanId) (left : JoinLeftovers) : Prop :=
  dev.zbNlmeRejoinResponse p extPanId (rejoinResponseAt mem) left ≠ some (dev, none)

def recordAddresses (frame : RejoinResponseFrame) :
    Option (AddrGlobals × Except RetError ℕ) := do
  let (addr, _) ←
    zbAddressUpdate dev.zg.addr dev.zg.extendedAddress frame.networkAddr true
  zbAddressUpdate addr (responderIeee frame) (dev.zg.neighbor.extNeighbor p).shortAddr true

/-- The response is accepted exactly if it is genuine, and then the entry of
the parent gets the address which the response carries. -/
structure AcceptsGenuine (extPanId : ExtPanId) (left : JoinLeftovers) : Prop where
  accepts : dev.Accepts p mem extPanId left ↔ dev.GenuineResponse p mem
  entry : dev.Accepts p mem extPanId left → ∀ addr ret,
    dev.recordAddresses p (rejoinResponseAt mem) = some (addr, ret) →
      ∃ ref, ret = .ok ref ∧ carriedSource mem = some (entryIeee addr ref) ∧
        (addr.addrMap ref).addr = (dev.zg.neighbor.extNeighbor p).shortAddr ∧
        ∀ last confirm, dev.zbNlmeRejoinResponse p extPanId (rejoinResponseAt mem) left =
            some (last, some confirm) → last.parent = ref

/-- If the parent is known and there is no destination address, the bytes
behind the source tell the same as the source; if it is not known, the blank
address reads as zero or as the bytes in the place of the source. -/
structure ComparesSource : Prop where
  known : ∀ addr ∈ dev.chosenIeee p, carriedDestination mem = none →
    (ieeeAt mem 16 = addr ↔ ieeeAt mem 8 = addr)
  unknown : dev.chosenIeee p = none →
    let addr := zbIeeeAddrDecompress dev.zg.addr
      (dev.zg.neighbor.extNeighbor p).longAddr
    addr = .zero ∨ ieeeAt mem 16 = addr

/-- The source is compared rightly where it matters, and the address table
takes the parent of a genuine response. -/
structure ComparesAndRecords : Prop where
  compares : dev.AdmitsDevice mem → dev.ComparesSource p mem
  records : dev.GenuineResponse p mem → ∀ addr ret,
    zbAddressUpdate dev.zg.addr dev.zg.extendedAddress
        (rejoinResponseAt mem).networkAddr true = some (addr, ret) →
      ¬ RefusesAddress addr (responderIeee (rejoinResponseAt mem))
        (dev.zg.neighbor.extNeighbor p).shortAddr

variable {dev p mem} {extPanId : ExtPanId} {left : JoinLeftovers}

theorem isCorrect_iff (hsource : nwkSourceIeee (mem 1) = true) :
    (rejoinResponseAt mem).isCorrect dev.zg.extendedAddress
        (zbIeeeAddrDecompress dev.zg.addr
          (dev.zg.neighbor.extNeighbor p).longAddr) = true ↔
      dev.AdmitsDevice mem ∧
        let addr := zbIeeeAddrDecompress dev.zg.addr
          (dev.zg.neighbor.extNeighbor p).longAddr
        (addr = .zero ∨ ieeeAt mem 16 = addr) := by
  have hdestination : (∀ addr ∈ carriedDestination mem, addr = dev.zg.extendedAddress) ↔
      (!nwkDestinationIeee (mem 1) ||
        decide (ieeeAt mem 8 = dev.zg.extendedAddress)) = true := by
    rw [carriedDestination]
    cases nwkDestinationIeee (mem 1) <;> simp
  rw [RejoinResponseFrame.isCorrect]
  constructor
  · intro hcorrect
    simp only [Bool.and_eq_true, Bool.not_eq_true', Bool.or_eq_true,
      decide_eq_true_eq] at hcorrect
    obtain ⟨⟨⟨⟨hsuccess, hassigned⟩, -⟩, hdst⟩, hsrc⟩ := hcorrect
    refine ⟨⟨hsuccess, hassigned, hdestination.mpr ?_⟩, hsrc⟩
    rw [Bool.or_eq_true, Bool.not_eq_true', decide_eq_true_eq]
    exact hdst
  · rintro ⟨⟨hsuccess, hassigned, hdst⟩, hsrc⟩
    have hdst' := hdestination.mp hdst
    rw [Bool.or_eq_true, Bool.not_eq_true', decide_eq_true_eq] at hdst'
    simp only [Bool.and_eq_true, Bool.not_eq_true', Bool.or_eq_true, decide_eq_true_eq]
    exact ⟨⟨⟨⟨hsuccess, hassigned⟩, hsource⟩, hdst'⟩, hsrc⟩

theorem zbNlmeRejoinResponse_eq
    (extPanId : ExtPanId) (left : JoinLeftovers) (frame : RejoinResponseFrame)
    (hstate : dev.state = .rejoin)
    (hcorrect : frame.isCorrect dev.zg.extendedAddress (zbIeeeAddrDecompress dev.zg.addr
        (dev.zg.neighbor.extNeighbor p).longAddr) = true) :
    dev.zbNlmeRejoinResponse p extPanId frame left = none ∨
      ∃ addr ret last confirm, dev.recordAddresses p frame = some (addr, ret) ∧
        dev.zbNlmeRejoinResponse p extPanId frame left = some (last, some confirm) ∧
        ∀ ref, ret = .ok ref → last.parent = ref := by
  cases hcall : dev.zbNlmeRejoinResponse p extPanId frame left with
  | none => exact Or.inl rfl
  | some result =>
    right
    unfold zbNlmeRejoinResponse at hcall
    dsimp only at hcall
    rw [if_pos ⟨hstate, hcorrect⟩] at hcall
    obtain ⟨⟨addr, _⟩, hown, hcall⟩ := bind_eq_some_iff.mp hcall
    obtain ⟨⟨addr', ret⟩, hparent, hcall⟩ := bind_eq_some_iff.mp hcall
    obtain ⟨stopped, hstop, hcall⟩ := bind_eq_some_iff.mp hcall
    obtain ⟨⟨marked, found⟩, hmark, hcall⟩ := bind_eq_some_iff.mp hcall
    obtain rfl := some.inj hcall
    obtain ⟨zg, -, rfl⟩ := map_eq_some_iff.mp hstop
    refine ⟨addr', ret, marked, _, ?_, rfl, ?_⟩
    · rw [recordAddresses, hown]
      exact hparent
    · rintro ref rfl
      obtain ⟨⟨zg', ret'⟩, -, hrest⟩ := bind_eq_some_iff.mp hmark
      cases ret' with
      | error err =>
        obtain ⟨rfl, -⟩ := some_pair_inj hrest
        rfl
      | ok n =>
        obtain ⟨rfl, -⟩ := some_pair_inj hrest
        rfl

theorem accepts_iff (hstate : dev.state = .rejoin)
    (hsource : nwkSourceIeee (mem 1) = true) :
    dev.Accepts p mem extPanId left ↔ dev.AdmitsDevice mem ∧
        let addr := zbIeeeAddrDecompress dev.zg.addr
          (dev.zg.neighbor.extNeighbor p).longAddr
        (addr = .zero ∨ ieeeAt mem 16 = addr) := by
  rw [← isCorrect_iff hsource, Accepts]
  by_cases hcorrect : (rejoinResponseAt mem).isCorrect dev.zg.extendedAddress
      (zbIeeeAddrDecompress dev.zg.addr (dev.zg.neighbor.extNeighbor p).longAddr) = true
  · refine iff_of_true ?_ hcorrect
    rcases zbNlmeRejoinResponse_eq extPanId left _
      hstate hcorrect with hnone | ⟨_, _, last, confirm, -, hcall, -⟩
    · rw [hnone]
      nofun
    · rw [hcall]
      intro heq
      exact nomatch (some_pair_inj heq).2
  · refine iff_of_false (fun haccepts => haccepts ?_) hcorrect
    rw [zbNlmeRejoinResponse]
    exact if_neg fun h => hcorrect h.2

theorem comparesSource_iff (hsource : nwkSourceIeee (mem 1) = true) :
    dev.ComparesSource p mem ↔
      ((let addr := zbIeeeAddrDecompress dev.zg.addr
          (dev.zg.neighbor.extNeighbor p).longAddr
        (addr = .zero ∨ ieeeAt mem 16 = addr)) ↔
        ∀ addr ∈ dev.chosenIeee p, carriedSource mem = some addr) := by
  by_cases hblank : (dev.zg.neighbor.extNeighbor p).longAddr = .zero ∨
      zbIeeeAddrDecompress dev.zg.addr (dev.zg.neighbor.extNeighbor p).longAddr = .zero
  · have hchosen : dev.chosenIeee p = none := if_pos hblank
    constructor
    · intro hcompares
      refine iff_of_true (hcompares.unknown hchosen) ?_
      rw [hchosen]
      nofun
    · intro hiff
      refine ⟨by rw [hchosen]; nofun, fun _ => hiff.mpr ?_⟩
      rw [hchosen]
      nofun
  · have hchosen : dev.chosenIeee p = some (zbIeeeAddrDecompress dev.zg.addr
      (dev.zg.neighbor.extNeighbor p).longAddr) := if_neg hblank
    have hzero := (not_or.mp hblank).2
    have hspec : (∀ addr ∈ dev.chosenIeee p, carriedSource mem = some addr) ↔
        ieeeAt mem (if nwkDestinationIeee (mem 1) then 16 else 8) =
          zbIeeeAddrDecompress dev.zg.addr (dev.zg.neighbor.extNeighbor p).longAddr := by
      rw [hchosen, carriedSource, if_pos hsource]
      simp
    rw [hspec]
    dsimp only
    rw [or_iff_right hzero]
    constructor
    · intro hcompares
      cases hdst : nwkDestinationIeee (mem 1) with
      | true => rfl
      | false =>
        have hcarried : carriedDestination mem = none := by
          rw [carriedDestination, hdst]
          rfl
        exact hcompares.known _ hchosen hcarried
    · intro hiff
      refine ⟨?_, fun hnone => by rw [hchosen] at hnone; contradiction⟩
      rw [hchosen]
      rintro addr haddr hcarried
      obtain rfl := some.inj haddr
      rw [carriedDestination] at hcarried
      cases hdst : nwkDestinationIeee (mem 1) with
      | true =>
        rw [hdst] at hcarried
        contradiction
      | false =>
        rw [hdst] at hiff
        exact hiff

theorem recordAddresses_entry (frame : RejoinResponseFrame) :
    (∀ addr ret, dev.recordAddresses p frame = some (addr, ret) →
      ∃ ref, ret = .ok ref ∧ responderIeee frame = entryIeee addr ref ∧
        (addr.addrMap ref).addr = (dev.zg.neighbor.extNeighbor p).shortAddr) ↔
      ∀ addr ret, zbAddressUpdate dev.zg.addr dev.zg.extendedAddress frame.networkAddr
            true = some (addr, ret) →
          ¬ RefusesAddress addr (responderIeee frame)
            (dev.zg.neighbor.extNeighbor p).shortAddr := by
  constructor
  · intro hentry addr ret hown hrefuses
    obtain ⟨g', hparent⟩ := hrefuses.zbAddressUpdate true
    have hrecord : dev.recordAddresses p frame =
        some (g', .error .overflow) := by
      rw [recordAddresses, hown]
      exact hparent
    obtain ⟨ref, hok, -⟩ := hentry _ _ hrecord
    contradiction
  · intro hnot addr ret hrecord
    obtain ⟨⟨addr', ret'⟩, hown, hparent⟩ := bind_eq_some_iff.mp hrecord
    rcases zbAddressUpdate_writes hparent with hrefuses | ⟨ref, hok, hieee, hs⟩
    · exact absurd hrefuses (hnot addr' ret' hown)
    · exact ⟨ref, hok, hieee.symm, hs⟩

/-- A response with a source address is accepted and recorded rightly exactly
if the comparison meets the source and the table takes its address. -/
theorem acceptsGenuine_iff (dev : JoinDevice) (p : ℕ) (mem : ℕ → UInt8)
    (extPanId : ExtPanId) (left : JoinLeftovers)
    (hstate : dev.state = .rejoin)
    (hsource : nwkSourceIeee (mem 1) = true) :
    dev.AcceptsGenuine p mem extPanId left ↔ dev.ComparesAndRecords p mem := by
  have haccepts : dev.Accepts p mem extPanId left ↔ _ := accepts_iff hstate hsource
  have hcompares : dev.ComparesSource p mem ↔ _ := comparesSource_iff hsource
  have hrecord := @recordAddresses_entry dev p (rejoinResponseAt mem)
  constructor
  · intro hright
    constructor
    · intro hadmits
      rw [hcompares]
      constructor
      · intro hcode
        exact (hright.accepts.mp (haccepts.mpr ⟨hadmits, hcode⟩)).source
      · intro hspec
        exact (haccepts.mp (hright.accepts.mpr ⟨hadmits, hspec⟩)).2
    · intro hgenuine
      refine hrecord.mp fun addr ret hret => ?_
      obtain ⟨ref, hok, hieee, hs, -⟩ :=
        hright.entry (hright.accepts.mpr hgenuine) addr ret hret
      rw [carriedSource_eq_some hsource] at hieee
      exact ⟨ref, hok, some.inj hieee, hs⟩
  · intro hcondition
    have hiff : dev.Accepts p mem extPanId left ↔ dev.GenuineResponse p mem := by
      rw [haccepts]
      constructor
      · rintro ⟨hadmits, hcode⟩
        exact ⟨hadmits, (hcompares.mp (hcondition.compares hadmits)).mp hcode⟩
      · rintro ⟨hadmits, hspec⟩
        exact ⟨hadmits, (hcompares.mp (hcondition.compares hadmits)).mpr hspec⟩
    refine ⟨hiff, fun hacc addr ret hret => ?_⟩
    obtain ⟨ref, hok, hieee, hs⟩ :=
      hrecord.mpr (hcondition.records (hiff.mp hacc)) addr ret hret
    refine ⟨ref, hok, ?_, hs, fun last confirm hcall => ?_⟩
    · rw [carriedSource_eq_some hsource, hieee]
    · have hcorrect := (isCorrect_iff hsource).mpr (haccepts.mp hacc)
      rcases zbNlmeRejoinResponse_eq extPanId left _
        hstate hcorrect with hnone | ⟨_, ret', last', _, hrec, hcall', hparent⟩
      · rw [hnone] at hcall
        contradiction
      · rw [hrec] at hret
        obtain ⟨rfl, rfl⟩ := some_pair_inj hret
        rw [hcall'] at hcall
        obtain ⟨rfl, -⟩ := some_pair_inj hcall
        exact hparent ref hok

/-- The long address of the parent which is known to `rejoiningDevice`. -/
def rejoinedIeee : IeeeAddr := ⟨⟨7, 0, 0⟩, ⟨1, 1, 1, 1, 1⟩⟩

def rejoinerIeee : IeeeAddr := ⟨⟨9, 0, 0⟩, ⟨1, 2, 3, 4, 5⟩⟩

def rejoiningDevice : JoinDevice where
  zg :=
    { Globals.init rejoinerIeee with
      addr :=
        { AddrGlobals.zeroed with
          usedManufacturer := Function.update (fun _ => false) 15 true
          devManufacturer :=
            Function.update (fun _ => .zero) 15 rejoinedIeee.deviceManufacturer }
      neighbor :=
        { zbNwkNeighborInit with
          extNeighbor := fun _ =>
            { (zbNwkNeighborInit.extNeighbor 0) with
              shortAddr := 7
              longAddr := ⟨15, rejoinedIeee.deviceId⟩ } } }
  tree := ⟨4, 2, 2, 0, 0, 0, 0, 0xFFFF, false⟩
  panMap _ := none
  state := .rejoin
  nwkUpdateId := 0
  extPanId := 0
  networkAddress := 0xFFFF
  parent := 0
  rowUpdateId _ := 0
  rowChannel _ := 0
  heard _ := none

def rejoinLeftovers : JoinLeftovers := ⟨fun _ => .zero, 0, 0⟩

def parentResponse (dst : Option IeeeAddr) (i : ℕ) : UInt8 :=
  (nwkAllocAndFillHdr 9 0x2222 7 1 (some rejoinedIeee) dst false ++
    [7, 0x34, 0x12, 0]).getD i 0

/-- The response with both addresses is accepted. -/
theorem acceptsGenuine_both :
    rejoiningDevice.AcceptsGenuine 0 (parentResponse (some rejoinerIeee)) 77
      rejoinLeftovers := by
  have hfree : ((zbAddressUpdate rejoiningDevice.zg.addr
        rejoiningDevice.zg.extendedAddress 0x1234 true).bind
      fun result => (zbIeeeAddrCompress result.1 rejoinedIeee).map
        fun result => (freeEntry result.1 (some result.2)).isSome) =
      some true := by
    decide +kernel
  refine (acceptsGenuine_iff rejoiningDevice 0 _ 77 rejoinLeftovers rfl
    (by decide)).mpr ⟨fun _ => ⟨?_, ?_⟩, ?_⟩
  · intro addr _ hnone
    contradiction
  · intro hnone
    contradiction
  · rintro - addr ret hown ⟨g₁, c, hcompress, -, -, hnone⟩
    have hresponder : responderIeee (rejoinResponseAt
        (parentResponse (some rejoinerIeee))) = rejoinedIeee := by decide
    have hassigned : (rejoinResponseAt
        (parentResponse (some rejoinerIeee))).networkAddr = 0x1234 := by decide
    rw [hresponder] at hcompress
    rw [hassigned] at hown
    rw [hown, bind_some, hcompress, map_some, hnone] at hfree
    contradiction

/-- The response without destination address is ignored. -/
theorem not_acceptsGenuine_half :
    ¬ rejoiningDevice.AcceptsGenuine 0 (parentResponse none) 77
      rejoinLeftovers := by
  intro hright
  have hadmits : rejoiningDevice.AdmitsDevice (parentResponse none) :=
    ⟨by decide, by decide, nofun⟩
  have hgenuine : rejoiningDevice.GenuineResponse 0 (parentResponse none) := by
    refine ⟨hadmits, fun addr haddr => ?_⟩
    have hchosen : rejoiningDevice.chosenIeee 0 = some rejoinedIeee := by decide
    rw [hchosen] at haddr
    obtain rfl := some.inj haddr
    decide
  exact hright.accepts.mpr hgenuine (by
    rw [zbNlmeRejoinResponse]
    exact if_neg fun h => absurd h.2 (by decide))

end JoinDevice

end Zboss
