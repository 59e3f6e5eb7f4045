import Zboss.ShortAddressIndexRuns

/-!
# The translation map behind the address table

What the table is for: a partial map from references to pairs of a long and a
short address.  Every operation on the context is an update of this map, and
the uniqueness of addresses is a property of the map alone.
-/

namespace Zboss

open Function Option TransitionSystem

abbrev TranslationMap := ℕ → Option (IeeeAddrCompressed × ℕ)

def translation (g : AddrGlobals) : TranslationMap := fun ref =>
  if (g.addrMap ref).used then some ((g.addrMap ref).ieeeAddr, (g.addrMap ref).addr)
  else none

variable {c : IeeeAddrCompressed} {g g' : AddrGlobals} {ref s i : ℕ} {address : IeeeAddr}

theorem translation_eq_some : translation g ref = some (c, s) ↔
      (g.addrMap ref).used = true ∧ (g.addrMap ref).ieeeAddr = c ∧
        (g.addrMap ref).addr = s := by
  unfold translation
  split
  · rename_i hused
    simp [hused]
  · rename_i hused
    simp [hused]

theorem translation_eq_none : translation g ref = none ↔ (g.addrMap ref).used = false := by
  unfold translation
  split
  · rename_i hused
    simp [hused]
  · rename_i hused
    simpa using hused

theorem SameTranslation.translation_eq (hsame : SameTranslation g g') :
    translation g' = translation g := by
  funext ref
  unfold translation
  rw [(hsame.entry ref).used, (hsame.entry ref).ieeeAddr, (hsame.entry ref).addr]

theorem translation_of_addrMap_eq (hmap : g'.addrMap = g.addrMap) :
    translation g' = translation g := by
  funext ref
  unfold translation
  rw [hmap]

theorem AddedAt.translation_eq {compressed : Option IeeeAddrCompressed} {shortAddr i : ℕ}
    (hadded : AddedAt g compressed shortAddr i g') :
    translation g i = none ∧ translation g' = update (translation g) i
          (some (compressed.getD .zero, shortAddr)) := by
  constructor
  · exact translation_eq_none.mpr (freeEntry_spec hadded.free).2
  · funext ref
    by_cases href : ref = i
    · subst href
      rw [update_self]
      exact translation_eq_some.mpr ⟨hadded.used, hadded.ieeeAddr, hadded.addr⟩
    · rw [update_of_ne href]
      have hent := hadded.others ref href
      unfold translation
      rw [hent.used, hent.ieeeAddr, hent.addr]

theorem translation_zbAddressDelete (g : AddrGlobals) (ref : ℕ) :
    translation (zbAddressDelete g ref) =
      update (translation g) ref none := by
  funext other
  by_cases hother : other = ref
  · subst hother
    simp [translation]
  · rw [update_of_ne hother]
    simp [translation, update_of_ne hother]

theorem UpdatedAt.translation_eq {compressed : IeeeAddrCompressed} {shortAddress : ℕ}
    (hused : (g.addrMap ref).used = true)
    (hupdated : UpdatedAt g ref compressed shortAddress g') :
    translation g' =
      update (translation g) ref (some (compressed, shortAddress)) := by
  funext other
  by_cases hother : other = ref
  · subst hother
    rw [update_self]
    apply translation_eq_some.mpr
    simp [hupdated.addrMap, hused]
  · rw [update_of_ne hother]
    unfold translation
    rw [hupdated.addrMap, update_of_ne hother]

/-- No two references share a known short address or a long address.  The
all-zero compressed address is the mark of an entry without long address. -/
structure UniqueAddresses (map : TranslationMap) : Prop where
  short : ∀ p q c c' s, map p = some (c, s) → map q = some (c', s) →
    s ≠ unknownShort → p = q
  long : ∀ p q c s s', map p = some (c, s) → map q = some (c, s') → c ≠ .zero → p = q

theorem UniqueAddresses.erase
    {map : TranslationMap} (hunique : UniqueAddresses map) (ref : ℕ) :
    UniqueAddresses (update map ref none) := by
  have hkeep : ∀ p pair, update map ref none p = some pair → map p = some pair := by
    intro p pair hp
    by_cases hpr : p = ref
    · subst hpr
      simp at hp
    · rwa [update_of_ne hpr] at hp
  constructor
  · intro p q c c' s hp hq hs
    exact hunique.short p q c c' s (hkeep p _ hp) (hkeep q _ hq) hs
  · intro p q c s s' hp hq hc
    exact hunique.long p q c s s' (hkeep p _ hp) (hkeep q _ hq) hc

theorem UniqueAddresses.assign {map : TranslationMap} (hunique : UniqueAddresses map)
    (hshort : s ≠ unknownShort → ∀ p c', map p = some (c', s) → p = ref)
    (hlong : c ≠ .zero → ∀ p s', map p = some (c, s') → p = ref) :
    UniqueAddresses (update map ref (some (c, s))) := by
  constructor
  · intro p q c₁ c₂ s₁ hp hq hs
    by_cases hpr : p = ref <;> by_cases hqr : q = ref
    · rw [hpr, hqr]
    · subst hpr
      rw [update_self, some.injEq, Prod.mk.injEq] at hp
      obtain ⟨rfl, rfl⟩ := hp
      rw [update_of_ne hqr] at hq
      exact (hshort hs q c₂ hq).symm
    · subst hqr
      rw [update_self, some.injEq, Prod.mk.injEq] at hq
      obtain ⟨rfl, rfl⟩ := hq
      rw [update_of_ne hpr] at hp
      exact hshort hs p c₁ hp
    · rw [update_of_ne hpr] at hp
      rw [update_of_ne hqr] at hq
      exact hunique.short p q c₁ c₂ s₁ hp hq hs
  · intro p q c₁ s₁ s₂ hp hq hc
    by_cases hpr : p = ref <;> by_cases hqr : q = ref
    · rw [hpr, hqr]
    · subst hpr
      rw [update_self, some.injEq, Prod.mk.injEq] at hp
      obtain ⟨rfl, rfl⟩ := hp
      rw [update_of_ne hqr] at hq
      exact (hlong hc q s₂ hq).symm
    · subst hqr
      rw [update_self, some.injEq, Prod.mk.injEq] at hq
      obtain ⟨rfl, rfl⟩ := hq
      rw [update_of_ne hpr] at hp
      exact hlong hc p s₁ hp
    · rw [update_of_ne hpr] at hp
      rw [update_of_ne hqr] at hq
      exact hunique.long p q c₁ s₁ s₂ hp hq hc

theorem ShortIndex.shortSearch_none (hindex : ShortIndex g)
    (hbound : ∀ ref, translation g ref ≠ none → ref < ieeeAddrTableSize)
    (hnone : shortSearch g s = none) (hs : s ≠ unknownShort)
    (ref : ℕ) (c : IeeeAddrCompressed) :
    translation g ref ≠ some (c, s) := by
  intro hmap
  obtain ⟨hused, _, haddr⟩ := translation_eq_some.mp hmap
  have hlt := hbound ref (by simp [hmap])
  exact shortSearch_eq_none hindex.indexes hnone
    ⟨hlt, hused, by rw [haddr]; exact hs⟩ haddr

theorem ieeeSearch_none
    (hbound : ∀ ref, translation g ref ≠ none → ref < ieeeAddrTableSize)
    (hnone : ieeeSearch g c = none) (ref s : ℕ) :
    translation g ref ≠ some (c, s) := by
  intro hmap
  have hlt := hbound ref (by simp [hmap])
  obtain ⟨hused, hieee, _⟩ := translation_eq_some.mp hmap
  have hhash : zbAddressCompressedIeeeHash c < ieeeAddrTableSize :=
    Nat.mod_lt _ (by decide)
  have hrefused := CyclicProbe.probe_eq_none hhash hnone hlt
  simp [hused, hieee] at hrefused

/-- Used manufacturer slots hold different manufacturers, free ones are still
zero, and the long addresses in the table point to used slots. -/
structure ManufacturerTable (g : AddrGlobals) : Prop where
  distinct : ∀ i j, i < devManufacturerTableSize → j < devManufacturerTableSize →
    g.usedManufacturer i = true → g.usedManufacturer j = true →
    g.devManufacturer i = g.devManufacturer j → i = j
  free : ∀ i, i < devManufacturerTableSize → g.usedManufacturer i = false →
    g.devManufacturer i = .zero
  pointed : ∀ ref c s, translation g ref = some (c, s) → c ≠ .zero →
    c.devManufacturer < devManufacturerTableSize ∧
      g.usedManufacturer c.devManufacturer = true

theorem manufacturerSlot_eq_some {manufacturer : DevManufacturer}
    (hslot : manufacturerSlot g manufacturer = some i) :
    i < devManufacturerTableSize ∧
      ((g.usedManufacturer i = true ∧ g.devManufacturer i = manufacturer) ∨
        (g.usedManufacturer i = false ∧
          ∀ j, j < devManufacturerTableSize → g.usedManufacturer j = true →
            g.devManufacturer j ≠ manufacturer)) := by
  simp only [manufacturerSlot] at hslot
  split at hslot
  · rename_i j hfind
    obtain rfl := some.inj hslot
    have hmem := List.mem_of_find?_eq_some hfind
    have hpred := List.find?_some hfind
    simp only [Bool.and_eq_true, beq_iff_eq] at hpred
    exact ⟨List.mem_range.mp hmem, Or.inl hpred⟩
  · rename_i hnone
    have hmem := List.mem_of_find?_eq_some hslot
    have hpred := List.find?_some hslot
    rw [List.find?_eq_none] at hnone
    refine ⟨by simpa using hmem, Or.inr ⟨by simpa using hpred, ?_⟩⟩
    intro j hj hused heq
    exact hnone j (List.mem_range.mpr hj) (by simp [hused, heq])

theorem manufacturerSlot_of_used (htable : ManufacturerTable g)
    (hi : i < devManufacturerTableSize)
    (hused : g.usedManufacturer i = true) :
    manufacturerSlot g (g.devManufacturer i) = some i := by
  have hfind : ((List.range devManufacturerTableSize).find? (fun j =>
        g.usedManufacturer j && g.devManufacturer j == g.devManufacturer i)) =
        some i := by
    cases hresult : ((List.range devManufacturerTableSize).find? (fun j =>
        g.usedManufacturer j && g.devManufacturer j == g.devManufacturer i)) with
    | none =>
      rw [List.find?_eq_none] at hresult
      have hfalse := hresult i (List.mem_range.mpr hi)
      simp [hused] at hfalse
    | some j =>
      have hmem := List.mem_range.mp (List.mem_of_find?_eq_some hresult)
      have hpred := List.find?_some hresult
      simp only [Bool.and_eq_true, beq_iff_eq] at hpred
      rw [htable.distinct j i hmem hi hpred.1 hused hpred.2]
  simp only [manufacturerSlot, hfind]

structure CompressedIn (g : AddrGlobals) (address : IeeeAddr) (g' : AddrGlobals)
    (c : IeeeAddrCompressed) : Prop where
  lt : c.devManufacturer < devManufacturerTableSize
  used : g'.usedManufacturer c.devManufacturer = true
  slot : g'.devManufacturer c.devManufacturer = address.deviceManufacturer
  deviceId : c.deviceId = address.deviceId
  others : ∀ i, i ≠ c.devManufacturer → g'.usedManufacturer i = g.usedManufacturer i ∧
      g'.devManufacturer i = g.devManufacturer i
  before : (g.usedManufacturer c.devManufacturer = true ∧
        g.devManufacturer c.devManufacturer = address.deviceManufacturer) ∨
      (g.usedManufacturer c.devManufacturer = false ∧
        ∀ j, j < devManufacturerTableSize → g.usedManufacturer j = true →
          g.devManufacturer j ≠ address.deviceManufacturer)

theorem compressedIn_of_zbIeeeAddrCompress
    (hcompress : zbIeeeAddrCompress g address = some (g', c)) :
    CompressedIn g address g' c := by
  obtain ⟨i, hslot, rfl, rfl⟩ := zbIeeeAddrCompress_eq_some hcompress
  obtain ⟨hi, hbefore⟩ := manufacturerSlot_eq_some hslot
  refine ⟨hi, ?_, ?_, rfl, ?_, hbefore⟩
  · simp
  · simp
  · intro j hj
    simp [update_of_ne hj]

def DistinctManufacturers (g : AddrGlobals) : Prop :=
  ∀ i j, i < devManufacturerTableSize → j < devManufacturerTableSize →
    g.usedManufacturer i = true → g.usedManufacturer j = true →
    g.devManufacturer i = g.devManufacturer j → i = j

theorem CompressedIn.distinct (hdistinct : DistinctManufacturers g)
    (hin : CompressedIn g address g' c) : DistinctManufacturers g' := by
  -- A used slot with the manufacturer of the address is the slot of `c`.
  have hslot : ∀ j, j < devManufacturerTableSize → g'.usedManufacturer j = true →
      g'.devManufacturer j = address.deviceManufacturer →
      j = c.devManufacturer := by
    intro j hj hused heq
    by_contra hne
    rw [(hin.others j hne).1] at hused
    rw [(hin.others j hne).2] at heq
    rcases hin.before with ⟨hused', heq'⟩ | ⟨_, hnone⟩
    · exact hne (hdistinct j _ hj hin.lt hused hused' (heq.trans heq'.symm))
    · exact hnone j hj hused heq
  intro i j hi hj husedi husedj heq
  by_cases hic : i = c.devManufacturer
  · rw [hic, hin.slot] at heq
    rw [hic, hslot j hj husedj heq.symm]
  · by_cases hjc : j = c.devManufacturer
    · rw [hjc, hin.slot] at heq
      rw [hjc, hslot i hi husedi heq]
    · rw [(hin.others i hic).1] at husedi
      rw [(hin.others j hjc).1] at husedj
      rw [(hin.others i hic).2, (hin.others j hjc).2] at heq
      exact hdistinct i j hi hj husedi husedj heq

theorem ManufacturerTable.compressed (htable : ManufacturerTable g)
    (hmap : translation g' = translation g)
    (hin : CompressedIn g address g' c) :
    ManufacturerTable g' := by
  have hmono : ∀ i, g.usedManufacturer i = true → g'.usedManufacturer i = true := by
    intro i hused
    by_cases hi : i = c.devManufacturer
    · rw [hi]
      exact hin.used
    · rwa [(hin.others i hi).1]
  constructor
  · exact hin.distinct htable.distinct
  · intro i hi hfree
    by_cases hic : i = c.devManufacturer
    · rw [hic, hin.used] at hfree
      contradiction
    · rw [(hin.others i hic).1] at hfree
      rw [(hin.others i hic).2]
      exact htable.free i hi hfree
  · intro ref c' s hentry hc'
    rw [hmap] at hentry
    obtain ⟨hlt, hused⟩ := htable.pointed ref c' s hentry hc'
    exact ⟨hlt, hmono _ hused⟩

theorem ManufacturerTable.congr (htable : ManufacturerTable g)
    (hused : g'.usedManufacturer = g.usedManufacturer)
    (hdev : g'.devManufacturer = g.devManufacturer)
    (hpointed : ∀ ref c s, translation g' ref = some (c, s) → c ≠ .zero →
      c.devManufacturer < devManufacturerTableSize ∧
        g.usedManufacturer c.devManufacturer = true) :
    ManufacturerTable g' := by
  constructor
  · rw [hused, hdev]
    exact htable.distinct
  · rw [hused, hdev]
    exact htable.free
  · rw [hused]
    exact hpointed

structure TranslationInvariant (g : AddrGlobals) : Prop where
  bound : ∀ ref, translation g ref ≠ none → ref < ieeeAddrTableSize
  unique : UniqueAddresses (translation g)
  manufacturers : ManufacturerTable g

theorem translation_zeroed (ref : ℕ) : translation AddrGlobals.zeroed ref = none := rfl

theorem translationInvariant_zeroed :
    TranslationInvariant AddrGlobals.zeroed := by
  refine ⟨?_, ⟨?_, ?_⟩, ⟨?_, ?_, ?_⟩⟩
  · intro ref href
    exact absurd (translation_zeroed ref) href
  · intro p q c c' s hp
    rw [translation_zeroed] at hp
    contradiction
  · intro p q c s s' hp
    rw [translation_zeroed] at hp
    contradiction
  · intro i j _ _ hused
    simp [AddrGlobals.zeroed] at hused
  · intro i _ _
    rfl
  · intro ref c s href
    rw [translation_zeroed] at href
    contradiction

section

variable (hinv : TranslationInvariant g)

include hinv

theorem TranslationInvariant.sameTranslation (hsame : SameTranslation g g') :
    TranslationInvariant g' := by
  have hmap := hsame.translation_eq
  constructor
  · rw [hmap]
    exact hinv.bound
  · rw [hmap]
    exact hinv.unique
  · apply hinv.manufacturers.congr hsame.usedManufacturer hsame.devManufacturer
    rw [hmap]
    exact hinv.manufacturers.pointed

theorem TranslationInvariant.compressed
    (hcompress : Zboss.zbIeeeAddrCompress g address = some (g', c)) :
    TranslationInvariant g' ∧ CompressedIn g address g' c ∧
      translation g' = translation g := by
  have hin := compressedIn_of_zbIeeeAddrCompress hcompress
  have hmap := translation_of_addrMap_eq (sameEntries_zbIeeeAddrCompress hcompress).1
  refine ⟨⟨?_, ?_, hinv.manufacturers.compressed hmap hin⟩, hin, hmap⟩
  · rw [hmap]
    exact hinv.bound
  · rw [hmap]
    exact hinv.unique

theorem TranslationInvariant.assign (hused : g'.usedManufacturer = g.usedManufacturer)
    (hdev : g'.devManufacturer = g.devManufacturer)
    (hmap : translation g' = update (translation g) ref (some (c, s)))
    (href : ref < ieeeAddrTableSize)
    (hshort : s ≠ unknownShort → ∀ p c', translation g p = some (c', s) → p = ref)
    (hlong : c ≠ .zero → ∀ p s', translation g p = some (c, s') → p = ref)
    (hpointed : c ≠ .zero → c.devManufacturer < devManufacturerTableSize ∧
        g.usedManufacturer c.devManufacturer = true) :
    TranslationInvariant g' := by
  constructor
  · intro other hother
    by_cases heq : other = ref
    · rwa [heq]
    · rw [hmap, update_of_ne heq] at hother
      exact hinv.bound other hother
  · rw [hmap]
    exact hinv.unique.assign hshort hlong
  · apply hinv.manufacturers.congr hused hdev
    intro other c' s' hother hc'
    by_cases heq : other = ref
    · rw [hmap, heq, update_self, some.injEq, Prod.mk.injEq] at hother
      rw [← hother.1] at hc' ⊢
      exact hpointed hc'
    · rw [hmap, update_of_ne heq] at hother
      exact hinv.manufacturers.pointed other c' s' hother hc'

theorem TranslationInvariant.zbAddressDelete (ref : ℕ) :
    TranslationInvariant (zbAddressDelete g ref) := by
  have hkeep : ∀ other pair, translation (Zboss.zbAddressDelete g ref) other = some pair →
      translation g other = some pair := by
    intro other pair hother
    rw [translation_zbAddressDelete] at hother
    by_cases heq : other = ref
    · subst heq
      simp at hother
    · rwa [update_of_ne heq] at hother
  constructor
  · intro other hother
    obtain ⟨pair, hpair⟩ := ne_none_iff_exists'.mp hother
    exact hinv.bound other (by simp [hkeep other pair hpair])
  · rw [translation_zbAddressDelete]
    exact hinv.unique.erase ref
  · apply hinv.manufacturers.congr (zbAddressDelete_usedManufacturer g ref)
      (zbAddressDelete_devManufacturer g ref)
    intro other c s hother hc
    exact hinv.manufacturers.pointed other c s (hkeep other _ hother) hc

theorem TranslationInvariant.addedAt {compressed : Option IeeeAddrCompressed}
    (hadded : AddedAt g compressed s i g')
    (hshort : s ≠ unknownShort → ∀ p c', translation g p ≠ some (c', s))
    (hlong : ∀ c, compressed = some c → ∀ p s', translation g p ≠ some (c, s'))
    (hpointed : ∀ c, compressed = some c → c.devManufacturer < devManufacturerTableSize ∧
        g.usedManufacturer c.devManufacturer = true) :
    TranslationInvariant g' := by
  apply hinv.assign hadded.usedManufacturer hadded.devManufacturer
    hadded.translation_eq.2 (freeEntry_spec hadded.free).1
  · intro hs p c' hp
    exact absurd hp (hshort hs p c')
  · intro hc p s' hp
    cases compressed with
    | none => exact absurd rfl hc
    | some c => exact absurd hp (hlong c rfl p s')
  · intro hc
    cases compressed with
    | none => exact absurd rfl hc
    | some c => exact hpointed c rfl

end

end Zboss
