import Zboss.AddressUpdateCorrectness
import Zboss.ApsDuplicates
import Zboss.SlotTable

/-!
# The number of used entries

`n_elements` counts the used entries of the address table, so that the scan of
`zb_aps_check_timer_cb` ends with the last of them. What may upset the count is
an entry in the sorted index which is not in use: it is found, and deleted once
more.
-/

namespace Zboss

open Function PackedArray TransitionSystem

theorem sublist_delShortSorted {g : AddrGlobals}
    (hn : g.nSortedElements ≤ ieeeAddrTableSize)
    (hnodup : (sortedRefs g).Nodup) (ref : ℕ) :
    (sortedRefs (delShortSorted g ref)).Sublist ((sortedRefs g).erase ref) := by
  by_cases hcounts : CountsStaleCopy g ref
  · obtain ⟨p, hp, hpref, hlength, hmoved⟩ :=
      delShortSorted_of_countsStaleCopy hn hnodup hcounts
    have herase : (sortedRefs g).erase ref =
          (live (shortSortedBytes g) g.nSortedElements).eraseIdx p := by
      rw [live_shortSortedBytes hn, ← hpref]
      exact erase_live_eq_eraseIdx hnodup (by omega)
    rw [herase, sortedRefs, hlength, hmoved,
      ← live_closeGap (show p < g.nSortedElements by omega),
      show g.nSortedElements - 2 = g.nSortedElements - 1 - 1 by omega,
      live_pred_eq_dropLast]
    exact List.dropLast_sublist _
  · rw [sortedRefs_delShortSorted hn hnodup hcounts]

structure ListsUsed (g : AddrGlobals) : Prop where
  indexes : Indexes g (· ∈ sortedRefs g)
  hasShort : ∀ ref, ref ∈ sortedRefs g → HasShort g ref

section Lists

variable {g g' : AddrGlobals} {members : ℕ → Prop}

theorem ListsUsed.of_indexes (hindex : Indexes g members)
    (hshort : ∀ ref, members ref → HasShort g ref) : ListsUsed g where
  indexes := hindex.of_members_iff hindex.mem_iff
  hasShort ref href := hshort ref ((hindex.mem_iff ref).mp href)

theorem ListsUsed.length_le (hlists : ListsUsed g) :
    g.nSortedElements ≤ ieeeAddrTableSize :=
  hlists.indexes.length_le fun ref href => (hlists.hasShort ref href).1

theorem Indexes.delShortSorted_sublist
    (hindex : Indexes g members) (hn : g.nSortedElements ≤ ieeeAddrTableSize)
    (ref : ℕ) :
    Indexes (Zboss.delShortSorted g ref) (· ∈ sortedRefs (Zboss.delShortSorted g ref)) ∧
      ∀ other, other ∈ sortedRefs (Zboss.delShortSorted g ref) →
        members other ∧ other ≠ ref := by
  have hsub := sublist_delShortSorted hn hindex.nodup ref
  refine ⟨⟨?_, fun other => Iff.rfl, ?_⟩, ?_⟩
  · exact (hindex.nodup.erase ref).sublist hsub
  · exact hindex.sorted.sublist (hsub.trans List.erase_sublist)
  · intro other hother
    have hmem := (hindex.nodup.mem_erase_iff).mp (hsub.subset hother)
    exact ⟨(hindex.mem_iff other).mp hmem.2, hmem.1⟩

section

variable (hlists : ListsUsed g)

include hlists

theorem ListsUsed.sameTranslation (hsame : SameTranslation g g') : ListsUsed g' := by
  refine .of_indexes (hlists.indexes.congr hsame.shortSorted hsame.nSortedElements
      fun ref _ => (hsame.entry ref).addr) ?_
  intro ref href
  exact (hasShort_congr (hsame.entry ref)).mpr (hlists.hasShort ref href)

theorem ListsUsed.zbIeeeAddrCompress {address : IeeeAddr} {compressed : IeeeAddrCompressed}
    (hcompress : zbIeeeAddrCompress g address = some (g', compressed)) :
    ListsUsed g' := by
  obtain ⟨hmap, hsorted, _, hn⟩ := sameEntries_zbIeeeAddrCompress hcompress
  refine .of_indexes (hlists.indexes.congr hsorted hn ?_) ?_
  · intro ref _
    rw [hmap]
  · intro ref href
    rw [HasShort, hmap]
    exact hlists.hasShort ref href

theorem ListsUsed.addedAt
    {compressed : Option IeeeAddrCompressed} {shortAddr i : ℕ}
    (hadded : AddedAt g compressed shortAddr i g') :
    ListsUsed g' := by
  have hfresh : i ∉ sortedRefs g :=
    fun hmem => hadded.not_hasShort (hlists.hasShort i hmem)
  refine .of_indexes (hlists.indexes.addedAt hfresh hadded) ?_
  rintro ref (href | ⟨rfl, hshort⟩)
  · have hne : ref ≠ i := by
      rintro rfl
      exact hfresh href
    exact (hadded.hasShort_of_ne hne).mpr (hlists.hasShort ref href)
  · exact hadded.hasShort_self.mpr hshort

theorem ListsUsed.zbAddressDelete (ref : ℕ) :
    ListsUsed (zbAddressDelete g ref) := by
  obtain ⟨hindex, hkept⟩ := hlists.indexes.delShortSorted_sublist hlists.length_le ref
  refine .of_indexes (hindex.congr rfl rfl ?_) ?_
  · intro other hother
    simp [update_of_ne (hkept other hother).2]
  · intro other hother
    obtain ⟨hmem, hne⟩ := hkept other hother
    simpa [HasShort, update_of_ne hne] using hlists.hasShort other hmem

theorem ListsUsed.updateEntryRemoved (ref : ℕ) (compressed : IeeeAddrCompressed) :
    ∃ members, Indexes (updateEntryRemoved g ref compressed) members ∧
      ¬ members ref ∧ ∀ other, members other → HasShort g other := by
  have hwritten : Indexes (g.setEntry ref { g.addrMap ref with ieeeAddr := compressed })
        (· ∈ sortedRefs g) :=
    hlists.indexes.setEntry (fun _ => rfl)
  unfold Zboss.updateEntryRemoved
  by_cases haddr : (g.addrMap ref).addr = unknownShort
  · rw [if_neg (by simpa using haddr)]
    refine ⟨_, hwritten, ?_, hlists.hasShort⟩
    exact fun hmem => (hlists.hasShort ref hmem).2.2 haddr
  · rw [if_pos haddr]
    obtain ⟨hindex, hkept⟩ := hwritten.delShortSorted_sublist hlists.length_le ref
    refine ⟨_, hindex, fun hmem => (hkept ref hmem).2 rfl, ?_⟩
    intro other hother
    exact hlists.hasShort other (hkept other hother).1

theorem ListsUsed.updatedAt {ref : ℕ} {compressed : IeeeAddrCompressed} {shortAddress : ℕ}
    (href : ref < ieeeAddrTableSize) (hused : (g.addrMap ref).used = true)
    (hshort : (g.addrMap ref).addr ≠ shortAddress → shortAddress ≠ unknownShort)
    (hupdated : UpdatedAt g ref compressed shortAddress g') :
    ListsUsed g' := by
  have hothers : ∀ other, other ≠ ref → HasShort g other →
      HasShort g' other := by
    intro other hother hmember
    simpa [HasShort, hupdated.addrMap, update_of_ne hother] using hmember
  by_cases hchange : (g.addrMap ref).addr = shortAddress
  · rcases hupdated.indexed with ⟨_, hsorted, hn⟩ | ⟨hne, _⟩
    swap
    · exact absurd hchange hne
    have hfields : ∀ other, (g'.addrMap other).addr = (g.addrMap other).addr ∧
        (g'.addrMap other).used = (g.addrMap other).used := by
      intro other
      rw [hupdated.addrMap]
      by_cases hother : other = ref
      · subst hother
        simp [hchange]
      · simp [update_of_ne hother]
    refine .of_indexes
      (hlists.indexes.congr hsorted hn fun other _ => (hfields other).1) ?_
    intro other hother
    rw [HasShort, (hfields other).1, (hfields other).2]
    exact hlists.hasShort other hother
  · obtain ⟨members, hindex, hfresh, hmembers⟩ :=
      hlists.updateEntryRemoved ref compressed
    refine .of_indexes (hindex.updatedAt hfresh hchange hupdated) ?_
    rintro other (hother | rfl)
    · have hne : other ≠ ref := by
        rintro rfl
        exact hfresh hother
      exact hothers other hne (hmembers other hother)
    · refine ⟨href, ?_, ?_⟩
      · simpa [hupdated.addrMap] using hused
      · simpa [hupdated.addrMap] using hshort hchange

end

end Lists

/-! ## The counter -/

def usedEntries (g : AddrGlobals) : Finset ℕ :=
  SlotTable.inUse ieeeAddrTableSize fun ref => (g.addrMap ref).used

structure CountsUsed (g : AddrGlobals) : Prop where
  lists : ListsUsed g
  nElements : g.nElements.toNat = (usedEntries g).card

theorem card_usedEntries_le (g : AddrGlobals) : (usedEntries g).card ≤ ieeeAddrTableSize :=
  SlotTable.card_inUse_le _ _

theorem usedEntries_congr {g g' : AddrGlobals}
    (hused : ∀ ref, (g'.addrMap ref).used = (g.addrMap ref).used) :
    usedEntries g' = usedEntries g :=
  congrArg (SlotTable.inUse ieeeAddrTableSize) (funext hused)

theorem countsUsed_zeroed : CountsUsed AddrGlobals.zeroed where
  lists := .of_indexes shortIndex_zeroed.indexes fun _ href => href
  nElements := by
    have hnone : (usedEntries AddrGlobals.zeroed).card = 0 :=
      SlotTable.card_inUse_eq_zero.mpr fun _ _ => rfl
    exact hnone.symm

section Counts

variable {g g' : AddrGlobals}

theorem CountsUsed.sameTranslation
    (hcounts : CountsUsed g) (hsame : SameTranslation g g') :
    CountsUsed g' where
  lists := hcounts.lists.sameTranslation hsame
  nElements := by
    rw [hsame.nElements, usedEntries_congr fun ref => (hsame.entry ref).used]
    exact hcounts.nElements

theorem CountsUsed.zbIeeeAddrCompress
    {address : IeeeAddr} {compressed : IeeeAddrCompressed}
    (hcounts : CountsUsed g)
    (hcompress : zbIeeeAddrCompress g address = some (g', compressed)) :
    CountsUsed g' where
  lists := hcounts.lists.zbIeeeAddrCompress hcompress
  nElements := by
    obtain ⟨hmap, _, hn, _⟩ := sameEntries_zbIeeeAddrCompress hcompress
    rw [hn, usedEntries_congr (g := g) fun ref => by rw [hmap]]
    exact hcounts.nElements

theorem CountsUsed.addedAt {compressed : Option IeeeAddrCompressed} {shortAddr i : ℕ}
    (hcounts : CountsUsed g) (hadded : AddedAt g compressed shortAddr i g') :
    CountsUsed g' where
  lists := hcounts.lists.addedAt hadded
  nElements := by
    obtain ⟨hi, hunused⟩ := freeEntry_spec hadded.free
    have hused : (fun ref => (g'.addrMap ref).used) =
        update (fun ref => (g.addrMap ref).used) i true := by
      funext ref
      by_cases href : ref = i
      · subst href
        rw [update_self, hadded.used]
      · rw [update_of_ne href, (hadded.others ref href).used]
    have hcard := @SlotTable.card_inUse_take _ _
      (fun ref => (g.addrMap ref).used) hi hunused
    have hle := card_usedEntries_le g'
    have hn := hcounts.nElements
    rw [usedEntries, hused] at hle ⊢
    rw [usedEntries] at hn
    rw [hadded.nElements, UInt32.toNat_add, hn, hcard]
    rw [hcard, ieeeAddrTableSize] at hle
    exact Nat.mod_eq_of_lt (Nat.lt_of_le_of_lt hle (by decide))

variable {ref shortAddress shortAddr : ℕ} {ret : Except RetError ℕ} {lock : Bool}

section

variable (hcounts : CountsUsed g)

include hcounts

theorem CountsUsed.zbAddressDelete
    (href : ref < ieeeAddrTableSize) (hused : (g.addrMap ref).used = true) :
    CountsUsed (zbAddressDelete g ref) where
  lists := hcounts.lists.zbAddressDelete ref
  nElements := by
    have hupdate : (fun other => ((Zboss.zbAddressDelete g ref).addrMap other).used) =
          update (fun other => (g.addrMap other).used) ref false := by
      funext other
      rw [zbAddressDelete_addrMap]
      by_cases hother : other = ref
      · subst hother
        rw [update_self, update_self]
      · rw [update_of_ne hother, update_of_ne hother]
    have hcard := @SlotTable.card_inUse_release _ _
      (fun other => (g.addrMap other).used) href hused
    have hn := hcounts.nElements
    rw [usedEntries] at hn
    have hone : (1 : UInt32) ≤ g.nElements := by
      rw [UInt32.le_iff_toNat_le, hn, ← hcard]
      exact Nat.le_add_left 1 _
    rw [zbAddressDelete_nElements, UInt32.toNat_sub_of_le _ _ hone, hn,
      usedEntries, hupdate, ← hcard]
    rfl

theorem CountsUsed.updateTarget {short long : Option ℕ}
    (hfound : ∀ other, short = some other ∨ long = some other →
      other < ieeeAddrTableSize ∧ (g.addrMap other).used = true)
    (htarget : updateTarget g short long = some (g', some ref)) :
    CountsUsed g' ∧ ref < ieeeAddrTableSize ∧
      g'.addrMap ref = g.addrMap ref ∧ (g'.addrMap ref).used = true := by
  obtain ⟨removed, hmerge, href, rfl⟩ := updateTarget_merge htarget
  obtain ⟨hlt, hused⟩ := hfound ref href
  cases removed with
  | none => exact ⟨hcounts, hlt, rfl, hused⟩
  | some other =>
    have hother : short = some other ∨ long = some other := by
      rcases hmerge.removed_cases with ⟨hshort, _, _⟩ | ⟨_, hlong, _⟩
      · exact Or.inl hshort
      · exact Or.inr hlong
    obtain ⟨hlt', hused'⟩ := hfound other hother
    have hne : ref ≠ other := fun heq => hmerge.removed_ne (congrArg some heq.symm)
    have hsame : (deleteRef g (some other)).addrMap ref = g.addrMap ref :=
      update_of_ne hne _ _
    refine ⟨hcounts.zbAddressDelete hlt' hused', hlt, hsame, ?_⟩
    rw [hsame]
    exact hused

theorem CountsUsed.updatedAt {compressed : IeeeAddrCompressed}
    (href : ref < ieeeAddrTableSize) (hused : (g.addrMap ref).used = true)
    (hshort : (g.addrMap ref).addr ≠ shortAddress → shortAddress ≠ unknownShort)
    (hupdated : UpdatedAt g ref compressed shortAddress g') :
    CountsUsed g' where
  lists := hcounts.lists.updatedAt href hused hshort hupdated
  nElements := by
    rw [hupdated.nElements, hcounts.nElements, usedEntries_congr]
    intro other
    rw [hupdated.addrMap]
    by_cases hother : other = ref
    · subst hother
      rw [update_self]
    · rw [update_of_ne hother]

theorem CountsUsed.addrAdd {compressed : Option IeeeAddrCompressed}
    (hadd : addrAdd g compressed shortAddr = some (g', ret)) :
    CountsUsed g' := by
  rcases addrAdd_eq_some hadd with ⟨_, _, rfl⟩ | ⟨i, _, hadded⟩
  · exact hcounts
  · exact hcounts.addedAt hadded

theorem CountsUsed.shortSearch_eq_some (hsearch : shortSearch g shortAddr = some ref) :
    HasShort g ref ∧ (g.addrMap ref).addr = shortAddr := by
  obtain ⟨hmem, haddr⟩ := Zboss.shortSearch_eq_some hsearch
  exact ⟨hcounts.lists.hasShort ref hmem, haddr⟩

end

theorem CountsUsed.zbAddressByIeee {ieee : IeeeAddr} {create lock : Bool}
    (hcounts : CountsUsed g)
    (hcall : zbAddressByIeee g ieee create lock = some (g', ret)) :
    CountsUsed g' := by
  obtain ⟨g₁, compressed, hcompress, hcases⟩ := zbAddressByIeee_eq_some hcall
  have hcounts₁ := hcounts.zbIeeeAddrCompress hcompress
  rcases hcases with ⟨ref, _, _, hlock⟩ | ⟨_, _, rfl, _⟩ | ⟨_, _, g₂, ret', hadd, hlock⟩
  · have hmarked :=
      hcounts₁.sameTranslation (sameTable_markClock g₁ ref).sameTranslation
    exact hmarked.sameTranslation (sameTranslation_lockResult hlock)
  · exact hcounts₁
  · exact (hcounts₁.addrAdd hadd).sameTranslation (sameTranslation_lockResult hlock)

theorem CountsUsed.zbAddressByShort {create lock : Bool} (hcounts : CountsUsed g)
    (hcall : zbAddressByShort g shortAddress create lock = some (g', ret)) :
    CountsUsed g' := by
  rcases zbAddressByShort_eq_some hcall with ⟨ref, _, _, hlock⟩ |
    ⟨_, _, rfl, _⟩ | ⟨_, _, g₂, ret', hadd, hlock⟩
  · have hmarked :=
      hcounts.sameTranslation (sameTable_markClock g ref).sameTranslation
    exact hmarked.sameTranslation (sameTranslation_lockResult hlock)
  · exact hcounts
  · exact (hcounts.addrAdd hadd).sameTranslation (sameTranslation_lockResult hlock)

theorem CountsUsed.zbAddressUpdate {ieee : IeeeAddr} (hcounts : CountsUsed g)
    (hbalanced : shortAddress = unknownShort → ∀ ref,
      longHit g ieee = some ref → (g.addrMap ref).addr = unknownShort)
    (hcall : zbAddressUpdate g ieee shortAddress lock = some (g', ret)) :
    CountsUsed g' := by
  obtain ⟨g₁, compressed, hcompress, hcases⟩ := zbAddressUpdate_eq_some hcall
  have hcounts₁ := hcounts.zbIeeeAddrCompress hcompress
  rcases hcases with ⟨g₂, ref, g₃, htarget, hupdated, _, hlock⟩ |
    ⟨_, _, g₂, ret', hadd, hlock⟩
  · have hlong : longHit g ieee = ieeeSearch g₁ compressed := by
      rw [longHit, hcompress]
      rfl
    have hmap := (sameEntries_zbIeeeAddrCompress hcompress).1
    have hfound : ∀ other, shortSearch g₁ shortAddress = some other ∨
        ieeeSearch g₁ compressed = some other →
          other < ieeeAddrTableSize ∧ (g₁.addrMap other).used = true := by
      rintro other (hshort | hlong)
      · obtain ⟨⟨hlt, hused, _⟩, _⟩ := hcounts₁.shortSearch_eq_some hshort
        exact ⟨hlt, hused⟩
      · obtain ⟨hlt, hused, _⟩ := ieeeSearch_eq_some hlong
        exact ⟨hlt, hused⟩
    obtain ⟨hcounts₂, href, hsame, hused⟩ := hcounts₁.updateTarget hfound htarget
    have hshort : (g₂.addrMap ref).addr ≠ shortAddress →
        shortAddress ≠ unknownShort := by
      intro hchange hunknown
      -- No entry is found by the unknown short address.
      obtain ⟨_, _, hor, _⟩ := updateTarget_merge htarget
      rcases hor with hshort | hlong'
      · obtain ⟨⟨_, _, hknown⟩, haddr⟩ := hcounts₁.shortSearch_eq_some hshort
        exact hknown (haddr.trans hunknown)
      · have haddr := hbalanced hunknown ref (hlong.trans hlong')
        rw [hsame, hmap, haddr] at hchange
        exact hchange hunknown.symm
    exact (hcounts₂.updatedAt href hused hshort hupdated).sameTranslation
      (sameTranslation_lockResult hlock)
  · exact (hcounts₁.addrAdd hadd).sameTranslation (sameTranslation_lockResult hlock)

end Counts

/-- The unknown short address is written only where it stands already, and only
used entries are deleted. -/
def AddressCall.Balanced (g : AddrGlobals) : AddressCall → Prop
  | .byIeee _ _ _ => True
  | .byShort _ _ _ => True
  | .update ieee shortAddress _ => shortAddress = unknownShort →
      ∀ ref, longHit g ieee = some ref → (g.addrMap ref).addr = unknownShort
  | .delete ref => ref < ieeeAddrTableSize ∧ (g.addrMap ref).used = true

theorem CountsUsed.apply {g g' : AddrGlobals} {call : AddressCall}
    (hcounts : CountsUsed g) (hbalanced : call.Balanced g)
    (happly : call.apply g = some g') :
    CountsUsed g' := by
  cases call with
  | byIeee ieee create lock =>
    simp only [AddressCall.apply, Option.map_eq_some_iff] at happly
    obtain ⟨⟨_, ret⟩, hresult, rfl⟩ := happly
    exact hcounts.zbAddressByIeee hresult
  | byShort shortAddress create lock =>
    simp only [AddressCall.apply, Option.map_eq_some_iff] at happly
    obtain ⟨⟨_, ret⟩, hresult, rfl⟩ := happly
    exact hcounts.zbAddressByShort hresult
  | update ieee shortAddress lock =>
    simp only [AddressCall.apply, Option.map_eq_some_iff] at happly
    obtain ⟨⟨_, ret⟩, hresult, rfl⟩ := happly
    exact hcounts.zbAddressUpdate hbalanced hresult
  | delete ref =>
    obtain rfl := Option.some.inj happly
    exact hcounts.zbAddressDelete hbalanced.1 hbalanced.2

end Zboss
