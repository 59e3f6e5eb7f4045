import Zboss.ShortAddressIndex

/-!
# What the address operations change

One lemma per operation: which fields of the address context it writes, and
with what.  Everything is stated on `addr_map` as a whole; what happens to
`short_sorted` is left to `Indexes`.
-/

namespace Zboss

open Function Option AddrGlobals

structure SameEntry (ent ent' : AddressMap) : Prop where
  ieeeAddr : ent'.ieeeAddr = ent.ieeeAddr
  addr : ent'.addr = ent.addr
  used : ent'.used = ent.used
  lockCnt : ent'.lockCnt = ent.lockCnt

theorem SameEntry.refl (ent : AddressMap) : SameEntry ent ent :=
  ⟨rfl, rfl, rfl, rfl⟩

theorem SameEntry.trans {ent ent' ent'' : AddressMap}
    (hfirst : SameEntry ent ent') (hsecond : SameEntry ent' ent'') :
    SameEntry ent ent'' :=
  ⟨hsecond.ieeeAddr.trans hfirst.ieeeAddr, hsecond.addr.trans hfirst.addr,
    hsecond.used.trans hfirst.used, hsecond.lockCnt.trans hfirst.lockCnt⟩

structure SameTable (g g' : AddrGlobals) : Prop where
  entry : ∀ ref, SameEntry (g.addrMap ref) (g'.addrMap ref)
  usedManufacturer : g'.usedManufacturer = g.usedManufacturer
  devManufacturer : g'.devManufacturer = g.devManufacturer
  shortSorted : g'.shortSorted = g.shortSorted
  nElements : g'.nElements = g.nElements
  nSortedElements : g'.nSortedElements = g.nSortedElements

theorem SameTable.refl (g : AddrGlobals) : SameTable g g :=
  ⟨fun ref => .refl (g.addrMap ref), rfl, rfl, rfl, rfl, rfl⟩

theorem SameTable.trans {g g' g'' : AddrGlobals}
    (hfirst : SameTable g g') (hsecond : SameTable g' g'') :
    SameTable g g'' where
  entry ref := (hfirst.entry ref).trans (hsecond.entry ref)
  usedManufacturer := hsecond.usedManufacturer.trans hfirst.usedManufacturer
  devManufacturer := hsecond.devManufacturer.trans hfirst.devManufacturer
  shortSorted := hsecond.shortSorted.trans hfirst.shortSorted
  nElements := hsecond.nElements.trans hfirst.nElements
  nSortedElements := hsecond.nSortedElements.trans hfirst.nSortedElements

variable {ent ent' : AddressMap} {g g' : AddrGlobals} {ref shortAddress : ℕ}
  {lock : Bool} {ret : Except RetError ℕ}

theorem sameTable_setEntry (hent : SameEntry (g.addrMap ref) ent) :
    SameTable g (g.setEntry ref ent) := by
  refine ⟨fun other => ?_, rfl, rfl, rfl, rfl, rfl⟩
  by_cases hother : other = ref
  · subst hother
    simpa [setEntry] using hent
  · simpa [setEntry, update_of_ne hother] using SameEntry.refl (g.addrMap other)

theorem sameTable_markClock (g : AddrGlobals) (ref : ℕ) :
    SameTable g (g.markClock ref) :=
  sameTable_setEntry ⟨rfl, rfl, rfl, rfl⟩

theorem SameTable.shortSearch (hsame : SameTable g g') (address : ℕ) :
    shortSearch g' address = shortSearch g address := by
  have hsorted : sortedAddr g' = sortedAddr g := by
    funext i
    rw [sortedAddr, sortedAddr, hsame.shortSorted, (hsame.entry _).addr]
  have hindex : shortSearchIndex g' address = shortSearchIndex g address := by
    unfold shortSearchIndex
    rw [hsorted, hsame.nSortedElements]
  unfold Zboss.shortSearch
  rw [hindex, hsorted, hsame.shortSorted, hsame.nSortedElements]

theorem sameTable_clockTickLoop (bound rounds : ℕ) (g : AddrGlobals) (cnt : ℕ) :
    SameTable g (clockTickLoop bound rounds g cnt).1 := by
  induction rounds generalizing g cnt with
  | zero => exact .refl g
  | succ rounds ih =>
    rw [clockTickLoop]
    have hnext : SameTable g { g with clockI := g.clockI + 1 } :=
      ⟨fun ref => .refl (g.addrMap ref), rfl, rfl, rfl, rfl, rfl⟩
    split
    · dsimp only
      split
      · split
        · exact hnext.trans (sameTable_setEntry ⟨rfl, rfl, rfl, rfl⟩)
        · exact hnext.trans (ih _ _)
      · exact hnext.trans (ih _ _)
    · exact .refl g

theorem sameTable_clockTick (g : AddrGlobals) : SameTable g (clockTick g) := by
  have hfirst := sameTable_clockTickLoop ieeeAddrTableSize ieeeAddrTableSize g 0
  unfold clockTick
  dsimp only
  split
  · rename_i g' _ hloop
    rwa [hloop] at hfirst
  · rename_i g' cnt hloop
    rw [hloop] at hfirst
    split
    · have hreset : SameTable g' { g' with clockI := 0 } :=
        ⟨fun ref => .refl (g'.addrMap ref), rfl, rfl, rfl, rfl, rfl⟩
      exact (hfirst.trans hreset).trans (sameTable_clockTickLoop _ _ _ _)
    · exact hfirst

theorem zbAddressLock_eq_some (hlock : zbAddressLock g ref = some g') :
    (g.addrMap ref).lockCnt + 1 ≠ 0 ∧ g' = g.setEntry ref
        { g.addrMap ref with
          lockCnt := (g.addrMap ref).lockCnt + 1
          clock := true } := by
  simp only [zbAddressLock] at hlock
  split at hlock
  · contradiction
  · rename_i hwrap
    exact ⟨hwrap, (some.inj hlock).symm⟩

structure SameAddresses (ent ent' : AddressMap) : Prop where
  ieeeAddr : ent'.ieeeAddr = ent.ieeeAddr
  addr : ent'.addr = ent.addr
  used : ent'.used = ent.used

theorem SameEntry.sameAddresses (hent : SameEntry ent ent') :
    SameAddresses ent ent' :=
  ⟨hent.ieeeAddr, hent.addr, hent.used⟩

theorem SameAddresses.trans {ent ent' ent'' : AddressMap}
    (hfirst : SameAddresses ent ent') (hsecond : SameAddresses ent' ent'') :
    SameAddresses ent ent'' :=
  ⟨hsecond.ieeeAddr.trans hfirst.ieeeAddr, hsecond.addr.trans hfirst.addr,
    hsecond.used.trans hfirst.used⟩

structure SameTranslation (g g' : AddrGlobals) : Prop where
  entry : ∀ ref, SameAddresses (g.addrMap ref) (g'.addrMap ref)
  usedManufacturer : g'.usedManufacturer = g.usedManufacturer
  devManufacturer : g'.devManufacturer = g.devManufacturer
  shortSorted : g'.shortSorted = g.shortSorted
  nElements : g'.nElements = g.nElements
  nSortedElements : g'.nSortedElements = g.nSortedElements

theorem SameTable.sameTranslation (hsame : SameTable g g') :
    SameTranslation g g' :=
  ⟨fun ref => (hsame.entry ref).sameAddresses, hsame.usedManufacturer,
    hsame.devManufacturer, hsame.shortSorted, hsame.nElements,
    hsame.nSortedElements⟩

theorem SameTranslation.trans {g g' g'' : AddrGlobals}
    (hfirst : SameTranslation g g') (hsecond : SameTranslation g' g'') :
    SameTranslation g g'' where
  entry ref := (hfirst.entry ref).trans (hsecond.entry ref)
  usedManufacturer := hsecond.usedManufacturer.trans hfirst.usedManufacturer
  devManufacturer := hsecond.devManufacturer.trans hfirst.devManufacturer
  shortSorted := hsecond.shortSorted.trans hfirst.shortSorted
  nElements := hsecond.nElements.trans hfirst.nElements
  nSortedElements := hsecond.nSortedElements.trans hfirst.nSortedElements

theorem sameTranslation_zbAddressLock (hlock : zbAddressLock g ref = some g') :
    SameTranslation g g' := by
  obtain ⟨_, rfl⟩ := zbAddressLock_eq_some hlock
  refine ⟨fun other => ?_, rfl, rfl, rfl, rfl, rfl⟩
  by_cases hother : other = ref
  · subst hother
    simp only [setEntry, update_self]
    exact ⟨rfl, rfl, rfl⟩
  · simp only [setEntry, update_of_ne hother]
    exact ⟨rfl, rfl, rfl⟩

theorem lockResult_eq_some {ret ret' : Except RetError ℕ}
    (hresult : lockResult lock g ret = some (g', ret')) :
    ret' = ret ∧ (g' = g ∨ ∃ ref, lock = true ∧ ret = .ok ref ∧
        zbAddressLock g ref = some g') := by
  cases lock with
  | false =>
    rw [lockResult] at hresult
    · simp only [some.injEq, Prod.mk.injEq] at hresult
      exact ⟨hresult.2.symm, Or.inl hresult.1.symm⟩
    · intro ref htrue
      contradiction
  | true =>
    cases ret with
    | error err =>
      simp only [lockResult, some.injEq, Prod.mk.injEq] at hresult
      exact ⟨hresult.2.symm, Or.inl hresult.1.symm⟩
    | ok ref =>
      simp only [lockResult, map_eq_some_iff, Prod.mk.injEq] at hresult
      obtain ⟨locked, hlock, rfl, rfl⟩ := hresult
      exact ⟨rfl, Or.inr ⟨ref, rfl, rfl, hlock⟩⟩

theorem sameTranslation_lockResult {ret ret' : Except RetError ℕ}
    (hresult : lockResult lock g ret = some (g', ret')) :
    SameTranslation g g' := by
  rcases (lockResult_eq_some hresult).2 with rfl | ⟨ref, _, _, hlock⟩
  · exact (SameTable.refl g').sameTranslation
  · exact sameTranslation_zbAddressLock hlock

theorem zbIeeeAddrCompress_eq_some {address : IeeeAddr} {compressed : IeeeAddrCompressed}
    (hcompress : zbIeeeAddrCompress g address = some (g', compressed)) :
    ∃ i, manufacturerSlot g address.deviceManufacturer = some i ∧
      compressed = ⟨i, address.deviceId⟩ ∧
      g' =
        { g with
          usedManufacturer := update g.usedManufacturer i true
          devManufacturer := update g.devManufacturer i address.deviceManufacturer } := by
  unfold zbIeeeAddrCompress at hcompress
  split at hcompress
  · rename_i i hslot
    simp only [some.injEq, Prod.mk.injEq] at hcompress
    exact ⟨i, hslot, hcompress.2.symm, hcompress.1.symm⟩
  · contradiction

/-! ## Writing entries -/

def addrAddEntry (g : AddrGlobals) (compressed : Option IeeeAddrCompressed)
    (shortAddr i : ℕ) : AddrGlobals :=
  (clockTick g).setEntry i
    { (clockTick g).addrMap i with
      addr := shortAddr
      clock := true
      ieeeAddr := compressed.getD .zero }

structure AddedAt (g : AddrGlobals) (compressed : Option IeeeAddrCompressed)
    (shortAddr i : ℕ) (g' : AddrGlobals) : Prop where
  free : freeEntry g compressed = some i
  others : ∀ ref, ref ≠ i → SameEntry (g.addrMap ref) (g'.addrMap ref)
  ieeeAddr : (g'.addrMap i).ieeeAddr = compressed.getD .zero
  addr : (g'.addrMap i).addr = shortAddr
  used : (g'.addrMap i).used = true
  lockCnt : (g'.addrMap i).lockCnt = (g.addrMap i).lockCnt
  usedManufacturer : g'.usedManufacturer = g.usedManufacturer
  devManufacturer : g'.devManufacturer = g.devManufacturer
  nElements : g'.nElements = g.nElements + 1
  indexed : (shortAddr = unknownShort ∧ g'.shortSorted = g.shortSorted ∧
        g'.nSortedElements = g.nSortedElements) ∨
      (shortAddr ≠ unknownShort ∧ ∃ indexed,
          addShortSorted (addrAddEntry g compressed shortAddr i) i shortAddr =
              some indexed ∧
            g'.shortSorted = indexed.shortSorted ∧
            g'.nSortedElements = indexed.nSortedElements)

theorem freeEntry_spec {compressed : Option IeeeAddrCompressed} {i : ℕ}
    (hfree : freeEntry g compressed = some i) :
    i < ieeeAddrTableSize ∧ (g.addrMap i).used = false := by
  constructor
  · refine CyclicProbe.probe_lt_size ?_ hfree
    cases compressed with
    | none => decide
    | some compressed => exact Nat.mod_lt _ (by decide)
  · simpa using CyclicProbe.probe_eq_some hfree

theorem addrAddSorted_eq_some {i shortAddr : ℕ} (hunused : (g.addrMap i).used = false)
    (hindexed : addrAddSorted g i shortAddr = some g') :
    (shortAddr = unknownShort ∧ g' = g) ∨
      (shortAddr ≠ unknownShort ∧ addShortSorted g i shortAddr = some g') := by
  unfold addrAddSorted at hindexed
  by_cases hshort : shortAddr = unknownShort
  · rw [if_neg (by simpa using hshort), some.injEq] at hindexed
    exact Or.inl ⟨hshort, hindexed.symm⟩
  · rw [if_pos hshort, hunused] at hindexed
    exact Or.inr ⟨hshort, by simpa using hindexed⟩

theorem addrAdd_eq_some {compressed : Option IeeeAddrCompressed} {shortAddr : ℕ}
    (hadd : addrAdd g compressed shortAddr = some (g', ret)) :
    (freeEntry g compressed = none ∧ ret = .error .overflow ∧ g' = g) ∨
      ∃ i, ret = .ok i ∧ AddedAt g compressed shortAddr i g' := by
  unfold addrAdd at hadd
  cases hfree : freeEntry g compressed with
  | none =>
    simp only [hfree, some.injEq, Prod.mk.injEq] at hadd
    exact Or.inl ⟨rfl, hadd.2.symm, hadd.1.symm⟩
  | some i =>
    right
    simp only [hfree] at hadd
    obtain ⟨indexed, hindexed, hresult⟩ := bind_eq_some_iff.mp hadd
    simp only [some.injEq, Prod.mk.injEq] at hresult
    obtain ⟨rfl, rfl⟩ := hresult
    change addrAddSorted (addrAddEntry g compressed shortAddr i) i shortAddr =
      some indexed at hindexed
    have hclock := sameTable_clockTick g
    have hunused : ((addrAddEntry g compressed shortAddr i).addrMap i).used = false := by
      simpa [addrAddEntry, setEntry, (hclock.entry i).used] using (freeEntry_spec hfree).2
    have hcases := addrAddSorted_eq_some hunused hindexed
    have hentry : indexed =
          { addrAddEntry g compressed shortAddr i with
            shortSorted := indexed.shortSorted
            nSortedElements := indexed.nSortedElements } := by
      rcases hcases with ⟨_, rfl⟩ | ⟨_, hadd⟩
      · rfl
      · exact (addShortSorted_eq_some hadd).2
    have hmap : indexed.addrMap = (addrAddEntry g compressed shortAddr i).addrMap := by
      rw [hentry]
    refine ⟨i, rfl, hfree, ?_, ?_, ?_, ?_, ?_, ?_, ?_, ?_, ?_⟩
    · intro ref href
      simp only [setEntry, update_of_ne href, hmap, addrAddEntry]
      exact hclock.entry ref
    · simp [setEntry, hmap, addrAddEntry]
    · simp [setEntry, hmap, addrAddEntry]
    · simp [setEntry]
    · simpa [setEntry, hmap, addrAddEntry] using (hclock.entry i).lockCnt
    · rw [hentry]
      exact hclock.usedManufacturer
    · rw [hentry]
      exact hclock.devManufacturer
    · rw [setEntry, hmap, hunused, hentry]
      simp only [addrAddEntry, setEntry, hclock.nElements]
      simp
    · rcases hcases with ⟨hshort, rfl⟩ | ⟨hshort, hadd⟩
      · exact Or.inl ⟨hshort, hclock.shortSorted, hclock.nSortedElements⟩
      · exact Or.inr ⟨hshort, indexed, hadd, rfl, rfl⟩

@[simp] theorem zbAddressDelete_addrMap (g : AddrGlobals) (ref : ℕ) :
    (zbAddressDelete g ref).addrMap =
      update g.addrMap ref { g.addrMap ref with used := false } := rfl

@[simp] theorem zbAddressDelete_usedManufacturer (g : AddrGlobals) (ref : ℕ) :
    (zbAddressDelete g ref).usedManufacturer = g.usedManufacturer := rfl

@[simp] theorem zbAddressDelete_devManufacturer (g : AddrGlobals) (ref : ℕ) :
    (zbAddressDelete g ref).devManufacturer = g.devManufacturer := rfl

@[simp] theorem zbAddressDelete_nElements (g : AddrGlobals) (ref : ℕ) :
    (zbAddressDelete g ref).nElements = g.nElements - 1 := rfl

def updateEntryRemoved (g : AddrGlobals) (ref : ℕ) (compressed : IeeeAddrCompressed) :
    AddrGlobals :=
  let written := g.setEntry ref { g.addrMap ref with ieeeAddr := compressed }
  if (g.addrMap ref).addr ≠ unknownShort then delShortSorted written ref
  else written

structure UpdatedAt (g : AddrGlobals) (ref : ℕ) (compressed : IeeeAddrCompressed)
    (shortAddress : ℕ) (g' : AddrGlobals) : Prop where
  addrMap : g'.addrMap = update g.addrMap ref
      { g.addrMap ref with
        ieeeAddr := compressed
        addr := shortAddress
        clock := true }
  usedManufacturer : g'.usedManufacturer = g.usedManufacturer
  devManufacturer : g'.devManufacturer = g.devManufacturer
  nElements : g'.nElements = g.nElements
  indexed : ((g.addrMap ref).addr = shortAddress ∧ g'.shortSorted = g.shortSorted ∧
        g'.nSortedElements = g.nSortedElements) ∨
      ((g.addrMap ref).addr ≠ shortAddress ∧ ∃ indexed,
          addShortSorted ((updateEntryRemoved g ref compressed).setEntry ref
                { g.addrMap ref with
                  ieeeAddr := compressed
                  addr := shortAddress })
              ref shortAddress = some indexed ∧
            g'.shortSorted = indexed.shortSorted ∧
            g'.nSortedElements = indexed.nSortedElements)

theorem updateEntryRemoved_frame
    (g : AddrGlobals) (ref : ℕ) (compressed : IeeeAddrCompressed) :
    (updateEntryRemoved g ref compressed).addrMap = update g.addrMap ref
          { g.addrMap ref with ieeeAddr := compressed } ∧
      (updateEntryRemoved g ref compressed).usedManufacturer = g.usedManufacturer ∧
      (updateEntryRemoved g ref compressed).devManufacturer = g.devManufacturer ∧
      (updateEntryRemoved g ref compressed).nElements = g.nElements := by
  unfold updateEntryRemoved
  split
  · exact ⟨rfl, rfl, rfl, rfl⟩
  · exact ⟨rfl, rfl, rfl, rfl⟩

theorem updateEntry_eq_some {compressed : IeeeAddrCompressed}
    (hupdate : updateEntry g ref compressed shortAddress = some g') :
    UpdatedAt g ref compressed shortAddress g' := by
  obtain ⟨indexed, hsorted, hmark⟩ := bind_eq_some_iff.mp hupdate
  obtain rfl := some.inj hmark
  simp only [updateSorted, setEntry, update_self] at hsorted
  by_cases haddr : (g.addrMap ref).addr = shortAddress
  · rw [if_neg (by simpa using haddr)] at hsorted
    obtain rfl := some.inj hsorted
    refine ⟨?_, rfl, rfl, rfl, Or.inl ⟨haddr, rfl, rfl⟩⟩
    simp [markClock, setEntry, haddr]
  · rw [if_pos haddr] at hsorted
    have hremoved : addShortSorted ((updateEntryRemoved g ref compressed).setEntry ref
              { g.addrMap ref with
                ieeeAddr := compressed
                addr := shortAddress })
            ref shortAddress = some indexed := by
      rw [← hsorted]
      unfold updateEntryRemoved
      by_cases hknown : (g.addrMap ref).addr = unknownShort
      · simp [hknown, setEntry]
      · simp [hknown, setEntry]
    have hfields := (addShortSorted_eq_some hremoved).2
    obtain ⟨hmap, husedManufacturer, hdevManufacturer, hnElements⟩ :=
      updateEntryRemoved_frame g ref compressed
    refine ⟨?_, ?_, ?_, ?_, Or.inr ⟨haddr, indexed, hremoved, rfl, rfl⟩⟩
    · rw [hfields]
      simp [markClock, setEntry, hmap]
    · rw [hfields]
      exact husedManufacturer
    · rw [hfields]
      exact hdevManufacturer
    · rw [hfields]
      exact hnElements

theorem zbAddressByIeee_eq_some {ieee : IeeeAddr} {create lock : Bool}
    (hcall : zbAddressByIeee g ieee create lock = some (g', ret)) :
    ∃ g₁ compressed, zbIeeeAddrCompress g ieee = some (g₁, compressed) ∧
      ((∃ ref, ieeeSearch g₁ compressed = some ref ∧ ret = .ok ref ∧
          lockResult lock (g₁.markClock ref) (.ok ref) = some (g', ret)) ∨
        (ieeeSearch g₁ compressed = none ∧ create = false ∧ g' = g₁ ∧
          ret = .error .notFound) ∨
        (ieeeSearch g₁ compressed = none ∧ create = true ∧
          ∃ g₂ ret', addrAdd g₁ (some compressed) unknownShort = some (g₂, ret') ∧
            lockResult lock g₂ ret' = some (g', ret))) := by
  obtain ⟨⟨g₁, compressed⟩, hcompress, hrest⟩ := bind_eq_some_iff.mp hcall
  refine ⟨g₁, compressed, hcompress, ?_⟩
  cases hsearch : ieeeSearch g₁ compressed with
  | some ref =>
    simp only [hsearch] at hrest
    obtain ⟨rfl, -⟩ := lockResult_eq_some hrest
    exact Or.inl ⟨ref, rfl, rfl, hrest⟩
  | none =>
    right
    cases create with
    | false =>
      simp only [hsearch, Bool.false_eq_true, if_false, some.injEq, Prod.mk.injEq] at hrest
      exact Or.inl ⟨rfl, rfl, hrest.1.symm, hrest.2.symm⟩
    | true =>
      simp only [hsearch, if_true] at hrest
      obtain ⟨⟨g₂, ret'⟩, hadd, hlock⟩ := bind_eq_some_iff.mp hrest
      exact Or.inr ⟨rfl, rfl, g₂, ret', hadd, hlock⟩

theorem zbAddressByShort_eq_some {create lock : Bool}
    (hcall : zbAddressByShort g shortAddress create lock = some (g', ret)) :
    (∃ ref, shortSearch g shortAddress = some ref ∧ ret = .ok ref ∧
        lockResult lock (g.markClock ref) (.ok ref) = some (g', ret)) ∨
      (shortSearch g shortAddress = none ∧ create = false ∧ g' = g ∧
        ret = .error .notFound) ∨
      (shortSearch g shortAddress = none ∧ create = true ∧
        ∃ g₂ ret', addrAdd g none shortAddress = some (g₂, ret') ∧
          lockResult lock g₂ ret' = some (g', ret)) := by
  unfold zbAddressByShort at hcall
  cases hsearch : shortSearch g shortAddress with
  | some ref =>
    simp only [hsearch] at hcall
    obtain ⟨rfl, -⟩ := lockResult_eq_some hcall
    exact Or.inl ⟨ref, rfl, rfl, hcall⟩
  | none =>
    right
    cases create with
    | false =>
      simp only [hsearch, Bool.false_eq_true, if_false, some.injEq, Prod.mk.injEq] at hcall
      exact Or.inl ⟨rfl, rfl, hcall.1.symm, hcall.2.symm⟩
    | true =>
      simp only [hsearch, if_true] at hcall
      obtain ⟨⟨g₂, ret'⟩, hadd, hlock⟩ := bind_eq_some_iff.mp hcall
      exact Or.inr ⟨rfl, rfl, g₂, ret', hadd, hlock⟩

theorem zbAddressUpdate_eq_some {ieee : IeeeAddr}
    (hcall : zbAddressUpdate g ieee shortAddress lock = some (g', ret)) :
    ∃ g₁ compressed, zbIeeeAddrCompress g ieee = some (g₁, compressed) ∧
      ((∃ g₂ ref g₃, updateTarget g₁ (shortSearch g₁ shortAddress)
            (ieeeSearch g₁ compressed) = some (g₂, some ref) ∧
          UpdatedAt g₂ ref compressed shortAddress g₃ ∧
          ret = .ok ref ∧
          lockResult lock g₃ (.ok ref) = some (g', ret)) ∨
        (shortSearch g₁ shortAddress = none ∧ ieeeSearch g₁ compressed = none ∧
          ∃ g₂ ret', addrAdd g₁ (some compressed) shortAddress = some (g₂, ret') ∧
            lockResult lock g₂ ret' = some (g', ret))) := by
  obtain ⟨⟨g₁, compressed⟩, hcompress, hbody⟩ := bind_eq_some_iff.mp hcall
  obtain ⟨⟨g₂, target⟩, htarget, hrest⟩ := bind_eq_some_iff.mp hbody
  refine ⟨g₁, compressed, hcompress, ?_⟩
  cases target with
  | some ref =>
    left
    obtain ⟨g₃, hupdate, hlock⟩ := bind_eq_some_iff.mp hrest
    obtain ⟨rfl, -⟩ := lockResult_eq_some hlock
    exact ⟨g₂, ref, g₃, htarget, updateEntry_eq_some hupdate, rfl, hlock⟩
  | none =>
    right
    have hfound : shortSearch g₁ shortAddress = none ∧
          ieeeSearch g₁ compressed = none ∧ g₂ = g₁ := by
      unfold updateTarget at htarget
      split at htarget
      · split at htarget
        · split at htarget
          · simp at htarget
          · split at htarget <;> simp at htarget
        · simp at htarget
      · simp at htarget
      · simp at htarget
      · rename_i hshort hlong
        simp only [some.injEq, Prod.mk.injEq, and_true] at htarget
        exact ⟨hshort, hlong, htarget.symm⟩
    obtain ⟨hshort, hlong, rfl⟩ := hfound
    dsimp only at hrest
    obtain ⟨⟨g₃, ret'⟩, hadd, hlock⟩ := bind_eq_some_iff.mp hrest
    exact ⟨hshort, hlong, g₃, ret', hadd, hlock⟩

end Zboss
