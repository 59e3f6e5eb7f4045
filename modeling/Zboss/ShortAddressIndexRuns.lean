import Zboss.AddressTableFrames
import Zboss.TransitionSystem

/-!
# The short-address index over runs

Runs of the four address operations from the zeroed context.  The index stays
correct as long as no deletion from `short_sorted` counts a stale copy of the
reference it removes.
-/

namespace Zboss

open Function Option TransitionSystem

inductive AddressCall where
  | byIeee (ieee : IeeeAddr) (create lock : Bool)
  | byShort (shortAddress : ℕ) (create lock : Bool)
  | update (ieee : IeeeAddr) (shortAddress : ℕ) (lock : Bool)
  | delete (ref : ℕ)

def AddressCall.apply (g : AddrGlobals) : AddressCall → Option AddrGlobals
  | .byIeee ieee create lock => (zbAddressByIeee g ieee create lock).map Prod.fst
  | .byShort shortAddress create lock =>
      (zbAddressByShort g shortAddress create lock).map Prod.fst
  | .update ieee shortAddress lock =>
      (zbAddressUpdate g ieee shortAddress lock).map Prod.fst
  | .delete ref => some (zbAddressDelete g ref)

def AddressCall.Allowed (g : AddrGlobals) : AddressCall → Prop
  | .byIeee _ _ _ => True
  | .byShort _ _ _ => True
  | .update _ shortAddress _ => shortAddress ≠ unknownShort
  | .delete ref => ref < ieeeAddrTableSize ∧ (g.addrMap ref).used = true

instance (g : AddrGlobals) (call : AddressCall) : Decidable (call.Allowed g) :=
  match call with
  | .byIeee _ _ _ => inferInstanceAs (Decidable True)
  | .byShort _ _ _ => inferInstanceAs (Decidable True)
  | .update _ shortAddress _ => inferInstanceAs (Decidable (shortAddress ≠ unknownShort))
  | .delete ref =>
      inferInstanceAs (Decidable (ref < ieeeAddrTableSize ∧ (g.addrMap ref).used = true))

def longHit (g : AddrGlobals) (ieee : IeeeAddr) : Option ℕ :=
  (zbIeeeAddrCompress g ieee).bind (fun compressed => ieeeSearch compressed.1 compressed.2)

/-- The deletions which `zb_address_update` makes, given the entries found by
the short and by the long address, meet no stale copy. -/
def MergeAvoidsStaleCopy (g : AddrGlobals) : Option ℕ → Option ℕ → Prop
  | some ref, some refLong =>
      ref = refLong ∨ if (g.addrMap ref).lockCnt = 0 then
          ¬ CountsStaleCopy g ref ∧ (lastSorted g ≠ ref → ¬ CountsStaleCopy g refLong)
        else ¬ CountsStaleCopy g refLong
  | none, some refLong => ¬ CountsStaleCopy g refLong
  | _, none => True

/-- No deletion from `short_sorted` which the call makes meets a stale copy. -/
def AddressCall.NoStaleCopy (g : AddrGlobals) : AddressCall → Prop
  | .byIeee _ _ _ => True
  | .byShort _ _ _ => True
  | .update ieee shortAddress _ =>
      MergeAvoidsStaleCopy g (shortSearch g shortAddress) (longHit g ieee)
  | .delete ref => ¬ CountsStaleCopy g ref

instance (g : AddrGlobals) (ref : ℕ) : Decidable (CountsStaleCopy g ref) :=
  inferInstanceAs (Decidable (ref ∈ sortedRefs g ∧ lastSorted g ≠ ref ∧ staleByte g = ref))

instance (g : AddrGlobals) (short long : Option ℕ) :
    Decidable (MergeAvoidsStaleCopy g short long) :=
  match short, long with
  | some ref, some refLong => inferInstanceAs (Decidable (ref = refLong ∨ ite _ _ _))
  | none, some refLong => inferInstanceAs (Decidable (¬ CountsStaleCopy g refLong))
  | none, none => inferInstanceAs (Decidable True)
  | some _, none => inferInstanceAs (Decidable True)

instance (g : AddrGlobals) (call : AddressCall) :
    Decidable (call.NoStaleCopy g) :=
  match call with
  | .byIeee _ _ _ => inferInstanceAs (Decidable True)
  | .byShort _ _ _ => inferInstanceAs (Decidable True)
  | .update ieee shortAddress _ =>
      inferInstanceAs (Decidable (MergeAvoidsStaleCopy g (shortSearch g shortAddress)
          (longHit g ieee)))
  | .delete ref => inferInstanceAs (Decidable (¬ CountsStaleCopy g ref))

def HasShort (g : AddrGlobals) (ref : ℕ) : Prop :=
  ref < ieeeAddrTableSize ∧ (g.addrMap ref).used = true ∧
    (g.addrMap ref).addr ≠ unknownShort

/-- `short_sorted` lists the used entries with a short address, each once and
in ascending order, and does not outgrow the table. -/
structure ShortIndex (g : AddrGlobals) : Prop where
  indexes : Indexes g (HasShort g)
  length_le : g.nSortedElements ≤ ieeeAddrTableSize

variable {g g' : AddrGlobals} {members : ℕ → Prop}
  {ref i shortAddr shortAddress : ℕ} {compressed : IeeeAddrCompressed}
  {ret : Except RetError ℕ} {lock : Bool}

theorem ShortIndex.of_indexes (hindex : Indexes g members)
    (hiff : ∀ ref, HasShort g ref ↔ members ref) :
    ShortIndex g := by
  have hindex' := hindex.of_members_iff hiff
  exact ⟨hindex', hindex'.length_le (fun ref href => href.1)⟩

theorem shortIndex_zeroed : ShortIndex AddrGlobals.zeroed := by
  refine ⟨⟨List.nodup_nil, ?_, List.Pairwise.nil⟩, Nat.zero_le _⟩
  intro ref
  simp [sortedRefs, AddrGlobals.zeroed, HasShort]

theorem hasShort_congr (hent : SameAddresses (g.addrMap ref) (g'.addrMap ref)) :
    HasShort g' ref ↔ HasShort g ref := by
  rw [HasShort, HasShort, hent.used, hent.addr]

theorem ShortIndex.sameTranslation (hindex : ShortIndex g) (hsame : SameTranslation g g') :
    ShortIndex g' :=
  .of_indexes (hindex.indexes.congr hsame.shortSorted hsame.nSortedElements
      (fun ref _ => (hsame.entry ref).addr))
    (fun ref => hasShort_congr (hsame.entry ref))

theorem sameEntries_zbIeeeAddrCompress {address : IeeeAddr}
    (hcompress : zbIeeeAddrCompress g address = some (g', compressed)) :
    g'.addrMap = g.addrMap ∧ g'.shortSorted = g.shortSorted ∧
      g'.nElements = g.nElements ∧ g'.nSortedElements = g.nSortedElements := by
  obtain ⟨i, _, _, rfl⟩ := zbIeeeAddrCompress_eq_some hcompress
  exact ⟨rfl, rfl, rfl, rfl⟩

theorem ShortIndex.zbIeeeAddrCompress {address : IeeeAddr} (hindex : ShortIndex g)
    (hcompress : zbIeeeAddrCompress g address = some (g', compressed)) :
    ShortIndex g' := by
  obtain ⟨hmap, hsorted, _, hn⟩ := sameEntries_zbIeeeAddrCompress hcompress
  refine .of_indexes (hindex.indexes.congr hsorted hn ?_) ?_
  · intro ref _
    rw [hmap]
  · intro ref
    rw [HasShort, HasShort, hmap]

theorem Indexes.addrAddEntry (hindex : Indexes g members) (hfresh : ¬ members i)
    (compressed : Option IeeeAddrCompressed) (shortAddr : ℕ) :
    Indexes (addrAddEntry g compressed shortAddr i) members := by
  have hclock := sameTable_clockTick g
  apply Indexes.setEntry
  · exact hindex.congr hclock.shortSorted hclock.nSortedElements
      (fun ref _ => (hclock.entry ref).addr)
  · exact fun hmember => absurd hmember hfresh

theorem Indexes.addedAt {compressed : Option IeeeAddrCompressed}
    (hindex : Indexes g members) (hfresh : ¬ members i)
    (hadded : AddedAt g compressed shortAddr i g') :
    Indexes g' (fun ref => members ref ∨ ref = i ∧ shortAddr ≠ unknownShort) := by
  have hne : ∀ ref, members ref → ref ≠ i := by
    intro ref href heq
    exact hfresh (heq ▸ href)
  rcases hadded.indexed with ⟨hshort, hsorted, hn⟩ | ⟨hshort, indexed, hadd, hsorted, hn⟩
  · have hsame : Indexes g' members := by
      apply hindex.congr hsorted hn
      intro ref href
      exact (hadded.others ref (hne ref href)).addr
    exact hsame.of_members_iff (fun ref => by simp [hshort])
  · have hclock := sameTable_clockTick g
    have hbefore := hindex.addrAddEntry hfresh compressed shortAddr
    have hafter := hbefore.addShortSorted hfresh
      (by simp [Zboss.addrAddEntry, AddrGlobals.setEntry]) hadd
    have hmap : indexed.addrMap =
        (Zboss.addrAddEntry g compressed shortAddr i).addrMap := by
      rw [(addShortSorted_eq_some hadd).2]
    have hlisted : Indexes g' (fun ref => members ref ∨ ref = i) := by
      apply hafter.congr hsorted hn
      intro ref href
      rw [hmap]
      rcases href with href | rfl
      · simp only [Zboss.addrAddEntry, AddrGlobals.setEntry, update_of_ne (hne ref href)]
        rw [(hadded.others ref (hne ref href)).addr, (hclock.entry ref).addr]
      · simp [Zboss.addrAddEntry, AddrGlobals.setEntry, hadded.addr]
    exact hlisted.of_members_iff (fun ref => by simp [hshort])

theorem AddedAt.hasShort_self {compressed : Option IeeeAddrCompressed}
    (hadded : AddedAt g compressed shortAddr i g') :
    HasShort g' i ↔ shortAddr ≠ unknownShort := by
  simp [HasShort, hadded.addr, hadded.used, (freeEntry_spec hadded.free).1]

theorem AddedAt.hasShort_of_ne {compressed : Option IeeeAddrCompressed}
    (hadded : AddedAt g compressed shortAddr i g')
    (href : ref ≠ i) : HasShort g' ref ↔ HasShort g ref :=
  hasShort_congr (hadded.others ref href).sameAddresses

theorem AddedAt.not_hasShort {compressed : Option IeeeAddrCompressed}
    (hadded : AddedAt g compressed shortAddr i g') :
    ¬ HasShort g i := by
  rintro ⟨_, hused, _⟩
  rw [(freeEntry_spec hadded.free).2] at hused
  contradiction

theorem ShortIndex.addedAt {compressed : Option IeeeAddrCompressed} (hindex : ShortIndex g)
    (hadded : AddedAt g compressed shortAddr i g') :
    ShortIndex g' := by
  have hfresh := hadded.not_hasShort
  refine .of_indexes (hindex.indexes.addedAt hfresh hadded) ?_
  intro ref
  by_cases href : ref = i
  · subst href
    simp [hadded.hasShort_self, hfresh]
  · simp [hadded.hasShort_of_ne href, href]

theorem ShortIndex.zbAddressDelete
    (hindex : ShortIndex g) (hclean : ¬ CountsStaleCopy g ref) :
    ShortIndex (zbAddressDelete g ref) := by
  have hdeleted := hindex.indexes.delShortSorted hindex.length_le hclean
  refine .of_indexes (hdeleted.congr rfl rfl ?_) ?_
  · intro other hother
    simp [update_of_ne hother.2]
  · intro other
    by_cases hother : other = ref
    · simp [HasShort, hother]
    · simp [HasShort, hother]

theorem Indexes.updatedAt
    (hremoved : Indexes (updateEntryRemoved g ref compressed) members)
    (hfresh : ¬ members ref)
    (hchange : (g.addrMap ref).addr ≠ shortAddress)
    (hupdated : UpdatedAt g ref compressed shortAddress g') :
    Indexes g' (fun other => members other ∨ other = ref) := by
  rcases hupdated.indexed with ⟨hsame, _⟩ | ⟨_, indexed, hadd, hsorted, hn⟩
  · exact absurd hsame hchange
  have hwritten : Indexes ((updateEntryRemoved g ref compressed).setEntry ref
          { g.addrMap ref with
            ieeeAddr := compressed
            addr := shortAddress })
        members :=
    hremoved.setEntry (fun hmember => absurd hmember hfresh)
  have hafter := hwritten.addShortSorted hfresh (by simp [AddrGlobals.setEntry]) hadd
  have hmap : indexed.addrMap = update g.addrMap ref
          { g.addrMap ref with
            ieeeAddr := compressed
            addr := shortAddress } := by
    rw [(addShortSorted_eq_some hadd).2]
    simp [AddrGlobals.setEntry, (updateEntryRemoved_frame g ref compressed).1]
  apply hafter.congr hsorted hn
  intro other _
  rw [hmap, hupdated.addrMap]
  by_cases hother : other = ref
  · subst hother
    simp
  · rw [update_of_ne hother, update_of_ne hother]

theorem Indexes.updateEntryRemoved (hindex : Indexes g members)
    (hn : g.nSortedElements ≤ ieeeAddrTableSize)
    (hknown : members ref → (g.addrMap ref).addr ≠ unknownShort)
    (hclean : ¬ CountsStaleCopy g ref)
    (compressed : IeeeAddrCompressed) :
    Indexes (updateEntryRemoved g ref compressed)
      (fun other => members other ∧ other ≠ ref) := by
  have hwritten : Indexes (g.setEntry ref { g.addrMap ref with ieeeAddr := compressed })
        members :=
    hindex.setEntry (fun _ => rfl)
  unfold Zboss.updateEntryRemoved
  by_cases haddr : (g.addrMap ref).addr = unknownShort
  · rw [if_neg (by simpa using haddr)]
    have hnot : ¬ members ref := fun hmember => hknown hmember haddr
    apply hwritten.of_members_iff
    intro other
    constructor
    · exact And.left
    · exact fun hother => ⟨hother, fun heq => hnot (heq ▸ hother)⟩
  · rw [if_pos haddr]
    exact hwritten.delShortSorted hn hclean

theorem ShortIndex.updatedAt (hindex : ShortIndex g)
    (href : ref < ieeeAddrTableSize) (hused : (g.addrMap ref).used = true)
    (hshort : shortAddress ≠ unknownShort)
    (hclean : (g.addrMap ref).addr ≠ shortAddress → ¬ CountsStaleCopy g ref)
    (hupdated : UpdatedAt g ref compressed shortAddress g') :
    ShortIndex g' := by
  have hself : HasShort g' ref := by
    refine ⟨href, ?_, ?_⟩
    · simpa [hupdated.addrMap] using hused
    · simpa [hupdated.addrMap] using hshort
  have hothers : ∀ other, other ≠ ref → (HasShort g' other ↔ HasShort g other) := by
    intro other hother
    simp [HasShort, hupdated.addrMap, update_of_ne hother]
  by_cases hchange : (g.addrMap ref).addr = shortAddress
  · rcases hupdated.indexed with ⟨_, hsorted, hn⟩ | ⟨hne, _⟩
    swap
    · exact absurd hchange hne
    refine .of_indexes (hindex.indexes.congr hsorted hn ?_) ?_
    · intro other _
      rw [hupdated.addrMap]
      by_cases hother : other = ref
      · subst hother
        simp [hchange]
      · rw [update_of_ne hother]
    · intro other
      by_cases hother : other = ref
      · subst hother
        have hself' : HasShort g other := ⟨href, hused, by rw [hchange]; exact hshort⟩
        simp [hself, hself']
      · exact hothers other hother
  · have hremoved := hindex.indexes.updateEntryRemoved hindex.length_le
      (fun hmember => hmember.2.2) (hclean hchange) compressed
    refine .of_indexes
      (hremoved.updatedAt (fun hmember => hmember.2 rfl) hchange hupdated) ?_
    intro other
    by_cases hother : other = ref
    · subst hother
      simp [hself]
    · simp [hothers other hother, hother]

theorem ShortIndex.addrAdd {compressed : Option IeeeAddrCompressed} (hindex : ShortIndex g)
    (hadd : addrAdd g compressed shortAddr = some (g', ret)) :
    ShortIndex g' := by
  rcases addrAdd_eq_some hadd with ⟨_, _, rfl⟩ | ⟨i, _, hadded⟩
  · exact hindex
  · exact hindex.addedAt hadded

theorem ShortIndex.zbAddressByIeee {ieee : IeeeAddr} {create lock : Bool}
    (hindex : ShortIndex g)
    (hcall : zbAddressByIeee g ieee create lock = some (g', ret)) :
    ShortIndex g' := by
  obtain ⟨g₁, compressed, hcompress, hcases⟩ := zbAddressByIeee_eq_some hcall
  have hindex₁ := hindex.zbIeeeAddrCompress hcompress
  rcases hcases with ⟨ref, _, _, hlock⟩ | ⟨_, _, rfl, _⟩ | ⟨_, _, g₂, ret', hadd, hlock⟩
  · have hmarked :=
      hindex₁.sameTranslation (sameTable_markClock g₁ ref).sameTranslation
    exact hmarked.sameTranslation (sameTranslation_lockResult hlock)
  · exact hindex₁
  · exact (hindex₁.addrAdd hadd).sameTranslation (sameTranslation_lockResult hlock)

theorem ShortIndex.zbAddressByShort {create lock : Bool} (hindex : ShortIndex g)
    (hcall : zbAddressByShort g shortAddress create lock = some (g', ret)) :
    ShortIndex g' := by
  rcases zbAddressByShort_eq_some hcall with ⟨ref, _, _, hlock⟩ |
    ⟨_, _, rfl, _⟩ | ⟨_, _, g₂, ret', hadd, hlock⟩
  · have hmarked :=
      hindex.sameTranslation (sameTable_markClock g ref).sameTranslation
    exact hmarked.sameTranslation (sameTranslation_lockResult hlock)
  · exact hindex
  · exact (hindex.addrAdd hadd).sameTranslation (sameTranslation_lockResult hlock)

theorem ieeeSearch_eq_some (hsearch : ieeeSearch g compressed = some ref) :
    ref < ieeeAddrTableSize ∧ (g.addrMap ref).used = true ∧
      (g.addrMap ref).ieeeAddr = compressed := by
  have hhash : zbAddressCompressedIeeeHash compressed < ieeeAddrTableSize :=
    Nat.mod_lt _ (by decide)
  have haccept := CyclicProbe.probe_eq_some hsearch
  simp only [Bool.and_eq_true, beq_iff_eq] at haccept
  exact ⟨CyclicProbe.probe_lt_size hhash hsearch, haccept.1, haccept.2⟩

section

variable (hindex : ShortIndex g)

include hindex

theorem ShortIndex.shortSearch_eq_some (hsearch : shortSearch g shortAddr = some ref) :
    HasShort g ref ∧ (g.addrMap ref).addr = shortAddr := by
  obtain ⟨hmem, haddr⟩ := Zboss.shortSearch_eq_some hsearch
  exact ⟨(hindex.indexes.mem_iff ref).mp hmem, haddr⟩

theorem ShortIndex.updateTarget (hclean :
      MergeAvoidsStaleCopy g (shortSearch g shortAddress) (ieeeSearch g compressed))
    (htarget : updateTarget g (shortSearch g shortAddress) (ieeeSearch g compressed) =
        some (g', some ref)) :
    ShortIndex g' ∧ ref < ieeeAddrTableSize ∧ (g'.addrMap ref).used = true ∧
      ((g'.addrMap ref).addr ≠ shortAddress → ¬ CountsStaleCopy g' ref) := by
  cases hshort : shortSearch g shortAddress with
  | none =>
    cases hlong : ieeeSearch g compressed with
    | none =>
      rw [hshort, hlong] at htarget
      simp [Zboss.updateTarget] at htarget
    | some long =>
      rw [hshort, hlong] at htarget hclean
      simp only [MergeAvoidsStaleCopy] at hclean
      simp only [Zboss.updateTarget, some.injEq, Prod.mk.injEq] at htarget
      obtain ⟨rfl, rfl⟩ := htarget
      obtain ⟨hlt, hused, _⟩ := ieeeSearch_eq_some hlong
      exact ⟨hindex, hlt, hused, fun _ => hclean⟩
  | some short =>
    obtain ⟨⟨hlt, hused, hknown⟩, haddr⟩ := hindex.shortSearch_eq_some hshort
    cases hlong : ieeeSearch g compressed with
    | none =>
      rw [hshort, hlong] at htarget
      simp only [Zboss.updateTarget, some.injEq, Prod.mk.injEq] at htarget
      obtain ⟨rfl, rfl⟩ := htarget
      exact ⟨hindex, hlt, hused, fun hne => absurd haddr hne⟩
    | some long =>
      rw [hshort, hlong] at htarget hclean
      simp only [MergeAvoidsStaleCopy] at hclean
      obtain ⟨hlt', hused', _⟩ := ieeeSearch_eq_some hlong
      by_cases heq : short = long
      · simp only [Zboss.updateTarget, heq, ne_eq, not_true_eq_false,
          if_false, some.injEq, Prod.mk.injEq] at htarget
        obtain ⟨rfl, rfl⟩ := htarget
        exact ⟨hindex, hlt', hused', fun hne => absurd (heq ▸ haddr) hne⟩
      · have hclean' := hclean.resolve_left heq
        by_cases hlock : (g.addrMap short).lockCnt = 0
        · simp only [Zboss.updateTarget, heq, ne_eq, not_false_eq_true,
            if_true, hlock, some.injEq, Prod.mk.injEq] at htarget
          obtain ⟨rfl, rfl⟩ := htarget
          rw [if_pos hlock] at hclean'
          refine ⟨hindex.zbAddressDelete hclean'.1, hlt', ?_, ?_⟩
          · simpa [update_of_ne (Ne.symm heq)] using hused'
          · intro _ hcounts
            have hmem : short ∈ sortedRefs g :=
              (hindex.indexes.mem_iff short).mpr ⟨hlt, hused, hknown⟩
            obtain ⟨hlast, hcounts'⟩ := hcounts.of_zbAddressDelete
              hindex.length_le hindex.indexes.nodup hmem hclean'.1
              (Ne.symm heq)
            exact hclean'.2 hlast hcounts'
        · rw [if_neg hlock] at hclean'
          by_cases hlock' : (g.addrMap long).lockCnt = 0
          · simp only [Zboss.updateTarget, heq, ne_eq, not_false_eq_true,
              if_true, if_neg hlock, hlock', some.injEq,
              Prod.mk.injEq] at htarget
            obtain ⟨rfl, rfl⟩ := htarget
            refine ⟨hindex.zbAddressDelete hclean', hlt, ?_, ?_⟩
            · simpa [update_of_ne heq] using hused
            · intro hne
              simp [update_of_ne heq, haddr] at hne
          · simp [Zboss.updateTarget, heq, hlock, hlock'] at htarget

theorem ShortIndex.zbAddressUpdate {ieee : IeeeAddr} (hshort : shortAddress ≠ unknownShort)
    (hclean : (AddressCall.update ieee shortAddress lock).NoStaleCopy g)
    (hcall : zbAddressUpdate g ieee shortAddress lock = some (g', ret)) :
    ShortIndex g' := by
  obtain ⟨g₁, compressed, hcompress, hcases⟩ := zbAddressUpdate_eq_some hcall
  have hindex₁ := hindex.zbIeeeAddrCompress hcompress
  rcases hcases with ⟨g₂, ref, g₃, htarget, hupdated, _, hlock⟩ |
    ⟨_, _, g₂, ret', hadd, hlock⟩
  · have hlong : longHit g ieee = ieeeSearch g₁ compressed := by
      rw [longHit, hcompress]
      rfl
    simp only [AddressCall.NoStaleCopy, hlong] at hclean
    -- Compression writes only the manufacturer table.
    obtain ⟨i, _, _, rfl⟩ := zbIeeeAddrCompress_eq_some hcompress
    obtain ⟨hindex₂, href, hused, hclean₂⟩ := hindex₁.updateTarget hclean htarget
    exact (hindex₂.updatedAt href hused hshort hclean₂ hupdated).sameTranslation
      (sameTranslation_lockResult hlock)
  · exact (hindex₁.addrAdd hadd).sameTranslation (sameTranslation_lockResult hlock)

theorem ShortIndex.apply {call : AddressCall} (hcall : call.Allowed g ∧ call.NoStaleCopy g)
    (happly : call.apply g = some g') :
    ShortIndex g' := by
  cases call with
  | byIeee ieee create lock =>
    simp only [AddressCall.apply, map_eq_some_iff] at happly
    obtain ⟨⟨_, ret⟩, hresult, rfl⟩ := happly
    exact hindex.zbAddressByIeee hresult
  | byShort shortAddress create lock =>
    simp only [AddressCall.apply, map_eq_some_iff] at happly
    obtain ⟨⟨_, ret⟩, hresult, rfl⟩ := happly
    exact hindex.zbAddressByShort hresult
  | update ieee shortAddress lock =>
    simp only [AddressCall.apply, map_eq_some_iff] at happly
    obtain ⟨⟨_, ret⟩, hresult, rfl⟩ := happly
    exact hindex.zbAddressUpdate hcall.1 hcall.2 hresult
  | delete ref =>
    obtain rfl := some.inj happly
    exact hindex.zbAddressDelete hcall.2

end

/-- Along every run of allowed calls from the zeroed context in which no
deletion counts a stale copy, the sorted index is correct. -/
theorem shortIndex_of_run {calls : List AddressCall} {g : AddrGlobals} (halong :
      AlongRun AddressCall.apply (fun g call => call.Allowed g ∧ call.NoStaleCopy g)
        AddrGlobals.zeroed calls)
    (hrun : run AddressCall.apply AddrGlobals.zeroed calls = some g) :
    ShortIndex g :=
  invariant_of_run (fun _ _ _ hindex hcall happly => hindex.apply hcall happly)
    shortIndex_zeroed halong hrun

def sampleIeee : IeeeAddr := ⟨⟨1, 0, 0⟩, ⟨0, 2, 0, 0, 0⟩⟩

/-- Two creations, an update which merges them and a deletion. -/
theorem shortIndex_of_run_merge : ∃ g, run AddressCall.apply AddrGlobals.zeroed
          [.byShort 7 true false, .byShort 3 true true,
            .byIeee sampleIeee true false, .update sampleIeee 7 false,
            .delete 1] = some g ∧
        ShortIndex g := by
  have hsome : (run AddressCall.apply AddrGlobals.zeroed
      [.byShort 7 true false, .byShort 3 true true,
        .byIeee sampleIeee true false, .update sampleIeee 7 false,
        .delete 1]).isSome = true := by
    decide +kernel
  obtain ⟨g, hrun⟩ := isSome_iff_exists.mp hsome
  exact ⟨g, hrun, shortIndex_of_run (by decide +kernel) hrun⟩

/-- Creation of three entries, deletion of two and reuse of one: the copy of
reference 1 which the deletions left behind the live part is counted when
reference 1 is deleted again. -/
def staleCopyRun : List AddressCall :=
  [.byShort 1 true false, .byShort 3 true false, .byShort 2 true false,
    .delete 1, .delete 2, .byShort 0 true false, .delete 1]

theorem not_shortIndex_of_staleCopyRun :
    ∃ g, AlongRun AddressCall.apply (fun g call => call.Allowed g)
          AddrGlobals.zeroed staleCopyRun ∧
        run AddressCall.apply AddrGlobals.zeroed staleCopyRun = some g ∧
        ¬ ShortIndex g := by
  have hresult : (run AddressCall.apply AddrGlobals.zeroed staleCopyRun).map
          (fun g => (sortedRefs g, (g.addrMap 0).used, (g.addrMap 0).addr)) =
        some ([], true, 1) := by
    decide +kernel
  obtain ⟨g, hrun, hobserved⟩ := map_eq_some_iff.mp hresult
  simp only [Prod.mk.injEq] at hobserved
  refine ⟨g, by decide +kernel, hrun, ?_⟩
  intro hindex
  have hmember : HasShort g 0 := ⟨by decide, hobserved.2.1, by rw [hobserved.2.2]; decide⟩
  have hlisted := (hindex.indexes.mem_iff 0).mpr hmember
  rw [hobserved.1] at hlisted
  contradiction

end Zboss
