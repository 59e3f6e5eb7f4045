import Zboss.AddressUpdateCorrectness

/-!
# What address calls do to an entry in use

An entry which somebody refers to is left alone by look-ups. An update writes to
an entry which it finds by one of the two addresses, or deletes it in a merge.
-/

namespace Zboss

open Function

def SlotsUsed (g : AddrGlobals) : Prop :=
  ∀ ref c s, translation g ref = some (c, s) → c ≠ .zero →
    g.usedManufacturer c.devManufacturer = true

/-- Entries outside `except` and used manufacturer slots are left alone. -/
structure KeepsEntries (g g' : AddrGlobals) (except : ℕ → Prop) : Prop where
  entry : ∀ ref c s, translation g ref = some (c, s) → ¬ except ref →
    translation g' ref = some (c, s)
  slots : ∀ i, g.usedManufacturer i = true →
    g'.usedManufacturer i = true ∧ g'.devManufacturer i = g.devManufacturer i
  slotsUsed : SlotsUsed g → SlotsUsed g'

section Keeps

variable {g g' g'' : AddrGlobals} {except : ℕ → Prop}

theorem KeepsEntries.trans
    (hfirst : KeepsEntries g g' except) (hsecond : KeepsEntries g' g'' except) :
    KeepsEntries g g'' except where
  entry ref c s hentry hkept :=
    hsecond.entry ref c s (hfirst.entry ref c s hentry hkept) hkept
  slots i hused := by
    obtain ⟨hused', hdev'⟩ := hfirst.slots i hused
    obtain ⟨hused'', hdev''⟩ := hsecond.slots i hused'
    exact ⟨hused'', hdev''.trans hdev'⟩
  slotsUsed hslots := hsecond.slotsUsed (hfirst.slotsUsed hslots)

theorem KeepsEntries.mono {except' : ℕ → Prop} (hkeeps : KeepsEntries g g' except)
    (hmono : ∀ ref, except ref → except' ref) :
    KeepsEntries g g' except' where
  entry ref c s hentry hkept := hkeeps.entry ref c s hentry (fun h => hkept (hmono ref h))
  slots := hkeeps.slots
  slotsUsed := hkeeps.slotsUsed

theorem SameTranslation.keepsEntries (hsame : SameTranslation g g') (except : ℕ → Prop) :
    KeepsEntries g g' except where
  entry ref c s hentry _ := by
    rw [hsame.translation_eq]
    exact hentry
  slots i hused := by
    rw [hsame.usedManufacturer, hsame.devManufacturer]
    exact ⟨hused, rfl⟩
  slotsUsed hslots := by
    rw [SlotsUsed, hsame.translation_eq, hsame.usedManufacturer]
    exact hslots

theorem keepsEntries_zbIeeeAddrCompress {address : IeeeAddr} {c : IeeeAddrCompressed}
    (hcompress : zbIeeeAddrCompress g address = some (g', c))
    (except : ℕ → Prop) :
    KeepsEntries g g' except := by
  have hin := compressedIn_of_zbIeeeAddrCompress hcompress
  have hmap := translation_of_addrMap_eq (sameEntries_zbIeeeAddrCompress hcompress).1
  have hslots : ∀ i, g.usedManufacturer i = true → g'.usedManufacturer i = true ∧
        g'.devManufacturer i = g.devManufacturer i := by
    intro i hused
    by_cases hi : i = c.devManufacturer
    · subst hi
      refine ⟨hin.used, ?_⟩
      rcases hin.before with ⟨_, hdev⟩ | ⟨hfree, _⟩
      · rw [hin.slot, hdev]
      · rw [hused] at hfree
        contradiction
    · obtain ⟨hused', hdev'⟩ := hin.others i hi
      rw [hused', hdev']
      exact ⟨hused, rfl⟩
  refine ⟨?_, hslots, ?_⟩
  · intro ref c' s hentry _
    rw [hmap]
    exact hentry
  · intro hpointed ref c' s hentry hc'
    rw [hmap] at hentry
    exact (hslots _ (hpointed ref c' s hentry hc')).1

theorem AddedAt.keepsEntries {compressed : Option IeeeAddrCompressed} {s i : ℕ}
    (hadded : AddedAt g compressed s i g')
    (hslot : ∀ c, compressed = some c → g.usedManufacturer c.devManufacturer = true)
    (except : ℕ → Prop) :
    KeepsEntries g g' except := by
  obtain ⟨hfree, hmap⟩ := hadded.translation_eq
  refine ⟨?_, ?_, ?_⟩
  · intro ref c s' hentry _
    have hne : ref ≠ i := by
      intro heq
      rw [heq, hfree] at hentry
      contradiction
    rw [hmap, update_of_ne hne]
    exact hentry
  · intro j hused
    rw [hadded.usedManufacturer, hadded.devManufacturer]
    exact ⟨hused, rfl⟩
  · intro hslots ref c s' hentry hc
    rw [hadded.usedManufacturer]
    by_cases heq : ref = i
    · rw [hmap, heq, update_self, Option.some.injEq, Prod.mk.injEq] at hentry
      cases compressed with
      | none => exact absurd hentry.1.symm hc
      | some c' =>
        rw [← hentry.1]
        exact hslot c' rfl
    · rw [hmap, update_of_ne heq] at hentry
      exact hslots ref c s' hentry hc

theorem keepsEntries_zbAddressDelete (g : AddrGlobals) (ref : ℕ) :
    KeepsEntries g (zbAddressDelete g ref) fun other => other = ref := by
  refine ⟨?_, fun i hused => ⟨hused, rfl⟩, ?_⟩
  · intro other c s hentry hother
    rw [translation_zbAddressDelete, update_of_ne hother]
    exact hentry
  · intro hslots other c s hentry hc
    rw [translation_zbAddressDelete] at hentry
    by_cases heq : other = ref
    · rw [heq, update_self] at hentry
      contradiction
    · rw [update_of_ne heq] at hentry
      exact hslots other c s hentry hc

end Keeps

variable {create lock : Bool} {ret : Except RetError ℕ} {c : IeeeAddrCompressed}
  {ref s : ℕ}

theorem zbAddressByIeee_effect {g g' : AddrGlobals} {ieee : IeeeAddr}
    (hcall : zbAddressByIeee g ieee create lock = some (g', ret)) :
    ∃ g₁ c, zbIeeeAddrCompress g ieee = some (g₁, c) ∧
      (∀ except, KeepsEntries g₁ g' except) ∧
      ∀ ref, ret = .ok ref → ∃ s, translation g' ref = some (c, s) := by
  obtain ⟨g₁, c, hcompress, hcases⟩ := zbAddressByIeee_eq_some hcall
  refine ⟨g₁, c, hcompress, ?_⟩
  rcases hcases with ⟨found, hsearch, hret, hlock⟩ | ⟨_, _, rfl, herror⟩ |
    ⟨_, _, g₂, ret', hadd, hlock⟩
  · have hsame := (sameTable_markClock g₁ found).sameTranslation.trans
      (sameTranslation_lockResult hlock)
    refine ⟨hsame.keepsEntries, ?_⟩
    intro ref hok
    rw [hret] at hok
    obtain rfl := Except.ok.inj hok
    obtain ⟨_, hused, hieee⟩ := ieeeSearch_eq_some hsearch
    refine ⟨(g₁.addrMap found).addr, ?_⟩
    rw [hsame.translation_eq]
    exact translation_eq_some.mpr ⟨hused, hieee, rfl⟩
  · refine ⟨(SameTable.refl g').sameTranslation.keepsEntries, ?_⟩
    intro ref hok
    rw [herror] at hok
    contradiction
  · have hsame := sameTranslation_lockResult hlock
    obtain ⟨rfl, _⟩ := lockResult_eq_some hlock
    rcases addrAdd_eq_some hadd with ⟨_, herror, rfl⟩ | ⟨i, hi, hadded⟩
    · refine ⟨hsame.keepsEntries, ?_⟩
      intro ref hok
      rw [herror] at hok
      contradiction
    · have hslot : ∀ c', some c = some c' →
          g₁.usedManufacturer c'.devManufacturer = true := by
        intro c' hc'
        obtain rfl := Option.some.inj hc'
        exact (compressedIn_of_zbIeeeAddrCompress hcompress).used
      refine ⟨fun except => (hadded.keepsEntries hslot except).trans
        (hsame.keepsEntries except), ?_⟩
      intro ref hok
      rw [hi] at hok
      obtain rfl := Except.ok.inj hok
      refine ⟨unknownShort, ?_⟩
      rw [hsame.translation_eq, hadded.translation_eq.2, update_self]
      rfl

theorem zbAddressByIeee_keeps {g g' : AddrGlobals} {ieee : IeeeAddr}
    (hcall : zbAddressByIeee g ieee create lock = some (g', ret))
    (except : ℕ → Prop) :
    KeepsEntries g g' except ∧ ∀ ref, ret = .ok ref →
        ∃ g₁ c s, zbIeeeAddrCompress g ieee = some (g₁, c) ∧
          translation g' ref = some (c, s) := by
  obtain ⟨g₁, c, hcompress, hkeeps, hresult⟩ := zbAddressByIeee_effect hcall
  refine ⟨(keepsEntries_zbIeeeAddrCompress hcompress except).trans (hkeeps except), ?_⟩
  intro ref hok
  obtain ⟨s, hentry⟩ := hresult ref hok
  exact ⟨g₁, c, s, hcompress, hentry⟩

theorem zbAddressByShort_keeps {g g' : AddrGlobals} {shortAddress : ℕ}
    (hcall : zbAddressByShort g shortAddress create lock = some (g', ret))
    (except : ℕ → Prop) :
    KeepsEntries g g' except ∧ ∀ ref, ret = .ok ref →
        (∀ found, shortSearch g shortAddress = some found →
          (g.addrMap found).used = true) →
        ∃ c, translation g' ref = some (c, shortAddress) := by
  rcases zbAddressByShort_eq_some hcall with ⟨found, hsearch, hret, hlock⟩ |
    ⟨_, _, rfl, herror⟩ | ⟨_, _, g₂, ret', hadd, hlock⟩
  · have hsame := (sameTable_markClock g found).sameTranslation.trans
      (sameTranslation_lockResult hlock)
    refine ⟨hsame.keepsEntries except, ?_⟩
    intro ref hok hused
    rw [hret] at hok
    obtain rfl := Except.ok.inj hok
    refine ⟨(g.addrMap found).ieeeAddr, ?_⟩
    rw [hsame.translation_eq]
    exact translation_eq_some.mpr
      ⟨hused found hsearch, rfl, (shortSearch_eq_some hsearch).2⟩
  · refine ⟨(SameTable.refl g').sameTranslation.keepsEntries except, ?_⟩
    intro ref hok
    rw [herror] at hok
    contradiction
  · have hsame := sameTranslation_lockResult hlock
    obtain ⟨rfl, _⟩ := lockResult_eq_some hlock
    rcases addrAdd_eq_some hadd with ⟨_, herror, rfl⟩ | ⟨i, hi, hadded⟩
    · refine ⟨hsame.keepsEntries except, ?_⟩
      intro ref hok
      rw [herror] at hok
      contradiction
    · have hslot : ∀ c : IeeeAddrCompressed, none = some c →
          g.usedManufacturer c.devManufacturer = true :=
        fun _ hc => by contradiction
      refine ⟨(hadded.keepsEntries hslot except).trans (hsame.keepsEntries except), ?_⟩
      intro ref hok _
      rw [hi] at hok
      obtain rfl := Except.ok.inj hok
      refine ⟨.zero, ?_⟩
      rw [hsame.translation_eq, hadded.translation_eq.2, update_self]
      rfl

def DroppedBy (g : AddrGlobals) (short long : Option ℕ) (ref : ℕ) : Prop :=
  (short = some ref ∧ (g.addrMap ref).lockCnt = 0 ∧ long ≠ none ∧ long ≠ some ref) ∨
    (long = some ref ∧ ∃ other ∈ short, other ≠ ref ∧ (g.addrMap other).lockCnt ≠ 0)

instance (g : AddrGlobals) (short long : Option ℕ) (ref : ℕ) :
    Decidable (DroppedBy g short long ref) :=
  inferInstanceAs (Decidable (_ ∨ _))

theorem Merge.droppedBy {g : AddrGlobals} {short long : Option ℕ} {ref other : ℕ}
    (hmerge : Merge (fun i => (g.addrMap i).lockCnt) short long ref (some other)) :
    DroppedBy g short long other := by
  have hne := hmerge.removed_ne
  rcases hmerge.removed_cases with ⟨rfl, rfl, hfree⟩ | ⟨rfl, rfl, hlocked⟩
  · exact Or.inl ⟨rfl, hfree, Option.some_ne_none ref, hne.symm⟩
  · exact Or.inr ⟨rfl, ref, rfl, fun heq => hne (heq ▸ rfl), hlocked⟩

structure UpdateEffect (g : AddrGlobals) (a : IeeeAddr) (s : ℕ) (g₁ : AddrGlobals)
    (c : IeeeAddrCompressed) (g' : AddrGlobals) (ret : Except RetError ℕ) :
    Prop where
  compressed : zbIeeeAddrCompress g a = some (g₁, c)
  keeps : KeepsEntries g g' fun ref =>
    shortSearch g s = some ref ∨ ieeeSearch g₁ c = some ref
  written : ∀ ref, shortSearch g s = some ref ∨ ieeeSearch g₁ c = some ref →
    (g.addrMap ref).used = true →
    ¬ DroppedBy g (shortSearch g s) (ieeeSearch g₁ c) ref →
    translation g' ref = some (c, s)
  result : ∀ ref, ret = .ok ref → (∀ found, shortSearch g s = some found →
      (g.addrMap found).used = true) →
    translation g' ref = some (c, s)
  slot : g'.usedManufacturer c.devManufacturer = true
  reads : zbIeeeAddrDecompress g' c = a

theorem UpdatedAt.translation_self {g g' : AddrGlobals}
    (hupdated : UpdatedAt g ref c s g') (hused : (g.addrMap ref).used = true) :
    translation g' ref = some (c, s) := by
  rw [hupdated.translation_eq hused, update_self]

theorem UpdatedAt.translation_of_ne {g g' : AddrGlobals} {ref other s : ℕ}
    (hupdated : UpdatedAt g ref c s g') (hother : other ≠ ref) :
    translation g' other = translation g other := by
  unfold translation
  rw [hupdated.addrMap, update_of_ne hother]

theorem UpdatedAt.keepsEntries {g g' : AddrGlobals} {removed : Option ℕ}
    (hupdated : UpdatedAt (deleteRef g removed) ref c s g')
    (hslot : g.usedManufacturer c.devManufacturer = true) :
    KeepsEntries g g' fun other => other = ref ∨ removed = some other := by
  obtain ⟨husedManufacturer, hdevManufacturer⟩ := deleteRef_manufacturers g removed
  refine ⟨?_, ?_, ?_⟩
  · intro other c' s' hentry hkept
    rw [not_or] at hkept
    rw [hupdated.translation_of_ne hkept.1, translation_deleteRef, eraseRef_eq_some]
    exact ⟨hentry, hkept.2⟩
  · intro i hused
    rw [hupdated.usedManufacturer, hupdated.devManufacturer, husedManufacturer,
      hdevManufacturer]
    exact ⟨hused, rfl⟩
  · intro hslots other c' s' hentry hc'
    rw [hupdated.usedManufacturer, husedManufacturer]
    by_cases heq : other = ref
    · obtain ⟨_, hieee, _⟩ := translation_eq_some.mp hentry
      rw [heq, hupdated.addrMap, update_self] at hieee
      rw [← hieee]
      exact hslot
    · rw [hupdated.translation_of_ne heq, translation_deleteRef,
        eraseRef_eq_some] at hentry
      exact hslots other c' s' hentry.1 hc'

theorem zbAddressUpdate_effect {g g' : AddrGlobals} {a : IeeeAddr}
    (hcall : zbAddressUpdate g a s lock = some (g', ret)) :
    ∃ g₁ c, UpdateEffect g a s g₁ c g' ret := by
  obtain ⟨g₁, c, hcompress, hcases⟩ := zbAddressUpdate_eq_some hcall
  have hin := compressedIn_of_zbIeeeAddrCompress hcompress
  have hmap := (sameEntries_zbIeeeAddrCompress hcompress).1
  have hshort : shortSearch g₁ s = shortSearch g s := shortSearch_compressed hcompress
  rw [hshort] at hcases
  refine ⟨g₁, c, ?_⟩
  have hreads : ∀ except, KeepsEntries g₁ g' except →
      g'.usedManufacturer c.devManufacturer = true ∧ zbIeeeAddrDecompress g' c = a := by
    intro except hkeeps
    obtain ⟨hused, hdev⟩ := hkeeps.slots _ hin.used
    refine ⟨hused, ?_⟩
    rw [zbIeeeAddrDecompress, hdev, hin.slot, hin.deviceId]
  rcases hcases with ⟨g₂, ref, g₃, htarget, hwritten, href, hlock⟩ |
    ⟨hnone, hnone', g₂, ret', hadd, hlock⟩
  · obtain ⟨removed, hmerge, hfound, rfl⟩ := updateTarget_merge htarget
    have hsame := sameTranslation_lockResult hlock
    have hkeeps := (hwritten.keepsEntries hin.used).trans (hsame.keepsEntries _)
    have hself : (g.addrMap ref).used = true → translation g' ref = some (c, s) := by
      intro hused
      rw [hsame.translation_eq]
      apply hwritten.translation_self
      have hentry : translation (deleteRef g₁ removed) ref =
          some ((g₁.addrMap ref).ieeeAddr, (g₁.addrMap ref).addr) := by
        rw [translation_deleteRef, eraseRef_eq_some]
        refine ⟨translation_eq_some.mpr ⟨?_, rfl, rfl⟩, hmerge.removed_ne⟩
        rw [hmap]
        exact hused
      exact (translation_eq_some.mp hentry).1
    constructor
    · exact hcompress
    · refine (keepsEntries_zbIeeeAddrCompress hcompress _).trans (hkeeps.mono ?_)
      rintro other (rfl | rfl)
      · exact hfound
      · rcases hmerge.removed_cases with ⟨hdropped, _⟩ | ⟨_, hdropped, _⟩
        · exact Or.inl hdropped
        · exact Or.inr hdropped
    · intro other hother hused hkept
      rcases hmerge.eq_or_removed hother with rfl | hremoved
      · exact hself hused
      · rw [hremoved, hmap] at hmerge
        exact absurd hmerge.droppedBy hkept
    · intro other hok hused
      rw [href] at hok
      obtain rfl := Except.ok.inj hok
      apply hself
      rcases hfound with hbyShort | hbyLong
      · exact hused ref hbyShort
      · rw [← hmap]
        exact (ieeeSearch_eq_some hbyLong).2.1
    · exact (hreads _ hkeeps).1
    · exact (hreads _ hkeeps).2
  · have hsame := sameTranslation_lockResult hlock
    obtain ⟨rfl, _⟩ := lockResult_eq_some hlock
    have heffect : (∀ except, KeepsEntries g₁ g' except) →
        (∀ ref, ret = .ok ref → translation g' ref = some (c, s)) →
        UpdateEffect g a s g₁ c g' ret := by
      intro hkeeps hresult
      obtain ⟨hslot, hread⟩ := hreads (fun _ => False) (hkeeps _)
      refine ⟨hcompress,
        (keepsEntries_zbIeeeAddrCompress hcompress _).trans (hkeeps _), ?_,
        fun ref hok _ => hresult ref hok, hslot, hread⟩
      intro ref hfound
      rw [hnone, hnone'] at hfound
      simp at hfound
    rcases addrAdd_eq_some hadd with ⟨_, herror, rfl⟩ | ⟨i, hi, hadded⟩
    · apply heffect hsame.keepsEntries
      intro ref hok
      rw [herror] at hok
      contradiction
    · have hslot : ∀ c', some c = some c' →
          g₁.usedManufacturer c'.devManufacturer = true := by
        intro c' hc'
        obtain rfl := Option.some.inj hc'
        exact hin.used
      apply heffect fun except =>
        (hadded.keepsEntries hslot except).trans (hsame.keepsEntries except)
      intro ref hok
      rw [hi] at hok
      obtain rfl := Except.ok.inj hok
      rw [hsame.translation_eq, hadded.translation_eq.2, update_self]
      rfl

end Zboss
