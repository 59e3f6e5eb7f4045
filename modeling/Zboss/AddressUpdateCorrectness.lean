import Zboss.AddressTranslationMap

/-!
# Correctness of an address update

`zb_address_update` merges what it finds by the short and by the long address
into one entry.  In a state reached without a counted stale copy the result is
the expected one, except that an entry without long address, which carries the
all-zero compressed address, may be taken for the entry of a real device: the
one whose manufacturer sits in slot 0.
-/

namespace Zboss

open Function Option Or AddrGlobals TransitionSystem

inductive Merge (lockCnt : ℕ → Fin 16) : Option ℕ → Option ℕ → ℕ → Option ℕ → Prop where
  | fresh (ref : ℕ) : Merge lockCnt none none ref none
  | short (ref : ℕ) : Merge lockCnt (some ref) none ref none
  | long (ref : ℕ) : Merge lockCnt none (some ref) ref none
  | same (ref : ℕ) : Merge lockCnt (some ref) (some ref) ref none
  | dropShort (ref short : ℕ) (hne : short ≠ ref) (hfree : lockCnt short = 0) :
      Merge lockCnt (some short) (some ref) ref (some short)
  | dropLong (ref long : ℕ) (hne : long ≠ ref) (hlocked : lockCnt ref ≠ 0) :
      Merge lockCnt (some ref) (some long) ref (some long)

variable {lockCnt : ℕ → Fin 16} {ieee : IeeeAddr} {lock : Bool} {ret : Except RetError ℕ}

theorem Merge.eq_or_removed {short long removed : Option ℕ} {ref other : ℕ}
    (hmerge : Merge lockCnt short long ref removed)
    (hfound : short = some other ∨ long = some other) :
    other = ref ∨ removed = some other := by
  cases hmerge with
  | fresh => simp at hfound
  | short =>
    left
    simpa [eq_comm] using hfound
  | long =>
    left
    simpa [eq_comm] using hfound
  | same =>
    left
    simpa [eq_comm] using hfound
  | dropShort short hne hfree =>
    rcases hfound with hfound | hfound
    · exact inr hfound
    · exact inl (some.inj hfound).symm
  | dropLong long hne hlocked =>
    rcases hfound with hfound | hfound
    · exact inl (some.inj hfound).symm
    · exact inr hfound

theorem Merge.removed_cases {short long : Option ℕ} {ref other : ℕ}
    (hmerge : Merge lockCnt short long ref (some other)) :
    (short = some other ∧ long = some ref ∧ lockCnt other = 0) ∨
      (short = some ref ∧ long = some other ∧ lockCnt ref ≠ 0) := by
  cases hmerge with
  | dropShort _ _ _ hfree => exact inl ⟨rfl, rfl, hfree⟩
  | dropLong _ _ _ hlocked => exact inr ⟨rfl, rfl, hlocked⟩

theorem Merge.ref_found {short long removed : Option ℕ} {ref : ℕ}
    (hmerge : Merge lockCnt short long ref removed) :
    (short = none ∧ long = none) ∨ short = some ref ∨
      (long = some ref ∧ ∀ other, short = some other → lockCnt other = 0) := by
  cases hmerge with
  | fresh => exact inl ⟨rfl, rfl⟩
  | short => exact inr (inl rfl)
  | long => exact inr (inr ⟨rfl, by simp⟩)
  | same => exact inr (inl rfl)
  | dropShort _ hfree =>
    refine inr (inr ⟨rfl, ?_⟩)
    intro other hother
    obtain rfl := some.inj hother
    assumption
  | dropLong => exact inr (inl rfl)

def eraseRef (map : TranslationMap) : Option ℕ → TranslationMap
  | none => map
  | some ref => update map ref none

theorem eraseRef_eq_some {map : TranslationMap} {removed : Option ℕ} {ref : ℕ}
    {pair : IeeeAddrCompressed × ℕ} :
    eraseRef map removed ref = some pair ↔ map ref = some pair ∧ removed ≠ some ref := by
  cases removed with
  | none => simp [eraseRef]
  | some other =>
    by_cases heq : ref = other
    · subst heq
      simp [eraseRef]
    · simp [eraseRef, update_of_ne heq, Ne.symm heq]

structure Updated (g : AddrGlobals) (c : IeeeAddrCompressed) (s ref : ℕ)
    (removed : Option ℕ) (g' : AddrGlobals) : Prop where
  merge : Merge (fun other => (g.addrMap other).lockCnt)
    (shortSearch g s) (ieeeSearch g c) ref removed
  lt : ref < ieeeAddrTableSize
  map : translation g' = update (eraseRef (translation g) removed) ref (some (c, s))
  fresh : shortSearch g s = none → ieeeSearch g c = none → translation g ref = none
  usedManufacturer : g'.usedManufacturer = g.usedManufacturer
  devManufacturer : g'.devManufacturer = g.devManufacturer

theorem Updated.sameTranslation
    {g g' g'' : AddrGlobals} {c : IeeeAddrCompressed} {s ref : ℕ}
    {removed : Option ℕ}
    (hupdated : Updated g c s ref removed g')
    (hsame : SameTranslation g' g'') :
    Updated g c s ref removed g'' where
  merge := hupdated.merge
  lt := hupdated.lt
  map := hsame.translation_eq.trans hupdated.map
  fresh := hupdated.fresh
  usedManufacturer := hsame.usedManufacturer.trans hupdated.usedManufacturer
  devManufacturer := hsame.devManufacturer.trans hupdated.devManufacturer

def deleteRef (g : AddrGlobals) : Option ℕ → AddrGlobals
  | none => g
  | some ref => zbAddressDelete g ref

theorem translation_deleteRef (g : AddrGlobals) (removed : Option ℕ) :
    translation (deleteRef g removed) = eraseRef (translation g) removed := by
  cases removed with
  | none => rfl
  | some ref => exact translation_zbAddressDelete g ref

theorem deleteRef_manufacturers (g : AddrGlobals) (removed : Option ℕ) :
    (deleteRef g removed).usedManufacturer = g.usedManufacturer ∧
      (deleteRef g removed).devManufacturer = g.devManufacturer := by
  cases removed with
  | none => exact ⟨rfl, rfl⟩
  | some ref => exact ⟨rfl, rfl⟩

theorem updateTarget_merge {g g' : AddrGlobals} {short long : Option ℕ} {ref : ℕ}
    (htarget : updateTarget g short long = some (g', some ref)) :
    ∃ removed, Merge (fun other => (g.addrMap other).lockCnt) short long ref removed ∧
      (short = some ref ∨ long = some ref) ∧ g' = deleteRef g removed := by
  cases short with
  | none =>
    cases long with
    | none => simp [updateTarget] at htarget
    | some long =>
      simp only [updateTarget, some.injEq, Prod.mk.injEq] at htarget
      obtain ⟨rfl, rfl⟩ := htarget
      exact ⟨none, .long long, inr rfl, rfl⟩
  | some short =>
    cases long with
    | none =>
      simp only [updateTarget, some.injEq, Prod.mk.injEq] at htarget
      obtain ⟨rfl, rfl⟩ := htarget
      exact ⟨none, .short short, inl rfl, rfl⟩
    | some long =>
      by_cases heq : short = long
      · simp only [updateTarget, heq, ne_eq, not_true_eq_false, if_false,
          some.injEq, Prod.mk.injEq] at htarget
        obtain ⟨rfl, rfl⟩ := htarget
        subst heq
        exact ⟨none, .same short, inl rfl, rfl⟩
      · by_cases hlock : (g.addrMap short).lockCnt = 0
        · simp only [updateTarget, heq, ne_eq, not_false_eq_true, if_true,
            hlock, some.injEq, Prod.mk.injEq] at htarget
          obtain ⟨rfl, rfl⟩ := htarget
          exact ⟨some short, .dropShort long short heq hlock, inr rfl, rfl⟩
        · by_cases hlock' : (g.addrMap long).lockCnt = 0
          · simp only [updateTarget, heq, ne_eq, not_false_eq_true, if_true,
              if_neg hlock, hlock', some.injEq, Prod.mk.injEq]
              at htarget
            obtain ⟨rfl, rfl⟩ := htarget
            exact ⟨some long, .dropLong short long (Ne.symm heq) hlock, inl rfl, rfl⟩
          · simp [updateTarget, heq, hlock, hlock'] at htarget

theorem Merge.removed_ne {short long removed : Option ℕ} {ref : ℕ}
    (hmerge : Merge lockCnt short long ref removed) :
    removed ≠ some ref := by
  intro hremoved
  subst hremoved
  cases hmerge with
  | dropShort _ _ hne => exact hne rfl
  | dropLong _ _ hne => exact hne rfl

theorem updateTarget_eq_some {g g' : AddrGlobals} {c : IeeeAddrCompressed} {s ref : ℕ}
    (hindex : ShortIndex g)
    (htarget : updateTarget g (shortSearch g s) (ieeeSearch g c) = some (g', some ref)) :
    ∃ removed, Merge (fun other => (g.addrMap other).lockCnt)
        (shortSearch g s) (ieeeSearch g c) ref removed ∧
      ref < ieeeAddrTableSize ∧ (g'.addrMap ref).used = true ∧
      translation g' = eraseRef (translation g) removed ∧
      g'.usedManufacturer = g.usedManufacturer ∧
      g'.devManufacturer = g.devManufacturer ∧
      (shortSearch g s ≠ none ∨ ieeeSearch g c ≠ none) := by
  obtain ⟨removed, hmerge, hfound, rfl⟩ := updateTarget_merge htarget
  have hbefore : ref < ieeeAddrTableSize ∧ (g.addrMap ref).used = true := by
    rcases hfound with hshort | hlong
    · obtain ⟨⟨hlt, hused, _⟩, _⟩ := hindex.shortSearch_eq_some hshort
      exact ⟨hlt, hused⟩
    · obtain ⟨hlt, hused, _⟩ := ieeeSearch_eq_some hlong
      exact ⟨hlt, hused⟩
  have hmap := translation_deleteRef g removed
  have hentry : translation (deleteRef g removed) ref =
      some ((g.addrMap ref).ieeeAddr, (g.addrMap ref).addr) := by
    rw [hmap, eraseRef_eq_some]
    exact ⟨translation_eq_some.mpr ⟨hbefore.2, rfl, rfl⟩, hmerge.removed_ne⟩
  obtain ⟨husedManufacturer, hdevManufacturer⟩ := deleteRef_manufacturers g removed
  refine ⟨removed, hmerge, hbefore.1, (translation_eq_some.mp hentry).1, hmap,
    husedManufacturer, hdevManufacturer, ?_⟩
  rcases hfound with hshort | hlong
  · exact inl (by rw [hshort]; exact some_ne_none ref)
  · exact inr (by rw [hlong]; exact some_ne_none ref)

theorem zbAddressUpdate_updated {g g' : AddrGlobals} {s ref : ℕ} (hindex : ShortIndex g)
    (hcall : zbAddressUpdate g ieee s lock = some (g', .ok ref)) :
    ∃ g₁ c removed, zbIeeeAddrCompress g ieee = some (g₁, c) ∧
      Updated g₁ c s ref removed g' := by
  obtain ⟨g₁, c, hcompress, hcases⟩ := zbAddressUpdate_eq_some hcall
  have hindex₁ := hindex.zbIeeeAddrCompress hcompress
  rcases hcases with ⟨g₂, ref', g₃, htarget, hwritten, href, hlock⟩ |
    ⟨hshort, hlong, g₂, ret', hadd, hlock⟩
  · obtain rfl := Except.ok.inj href
    obtain ⟨removed, hmerge, hlt, hused, hmap, husedManufacturer,
      hdevManufacturer, hfound⟩ := updateTarget_eq_some hindex₁ htarget
    have hupdated : Updated g₁ c s ref removed g₃ := by
      refine ⟨hmerge, hlt, ?_, ?_, ?_, ?_⟩
      · rw [hwritten.translation_eq hused, hmap]
      · intro hnone hnone'
        rcases hfound with hfound | hfound
        · exact absurd hnone hfound
        · exact absurd hnone' hfound
      · rw [hwritten.usedManufacturer, husedManufacturer]
      · rw [hwritten.devManufacturer, hdevManufacturer]
    exact ⟨g₁, c, removed, hcompress,
      hupdated.sameTranslation (sameTranslation_lockResult hlock)⟩
  · obtain ⟨rfl, _⟩ := lockResult_eq_some hlock
    rcases addrAdd_eq_some hadd with ⟨_, herror, _⟩ | ⟨i, hi, hadded⟩
    · contradiction
    obtain rfl := Except.ok.inj hi
    obtain ⟨hfresh, hmap⟩ := hadded.translation_eq
    have hupdated : Updated g₁ c s ref none g₂ := by
      refine ⟨?_, (freeEntry_spec hadded.free).1, hmap, fun _ _ => hfresh,
        hadded.usedManufacturer, hadded.devManufacturer⟩
      rw [hshort, hlong]
      exact .fresh ref
    exact ⟨g₁, c, none, hcompress,
      hupdated.sameTranslation (sameTranslation_lockResult hlock)⟩

theorem Updated.short_eq {g g' : AddrGlobals} {c c' : IeeeAddrCompressed} {s ref other : ℕ}
    {removed : Option ℕ}
    (hindex : ShortIndex g) (hinv : TranslationInvariant g)
    (hs : s ≠ unknownShort)
    (hupdated : Updated g c s ref removed g')
    (hother : eraseRef (translation g) removed other = some (c', s)) :
    other = ref := by
  obtain ⟨hbefore, hkept⟩ := eraseRef_eq_some.mp hother
  cases hshort : shortSearch g s with
  | none => exact absurd hbefore (hindex.shortSearch_none hinv.bound hshort hs other c')
  | some short =>
    obtain ⟨⟨_, hused, _⟩, haddr⟩ := hindex.shortSearch_eq_some hshort
    have hshort' : translation g short =
        some ((g.addrMap short).ieeeAddr, s) :=
      translation_eq_some.mpr ⟨hused, rfl, haddr⟩
    have heq := hinv.unique.short other short _ _ s hbefore hshort' hs
    have hfound := hupdated.merge.eq_or_removed (inl (heq ▸ hshort))
    exact hfound.resolve_right hkept

theorem Updated.long_eq {g g' : AddrGlobals} {c : IeeeAddrCompressed} {s s' ref other : ℕ}
    {removed : Option ℕ}
    (hinv : TranslationInvariant g) (hc : c ≠ .zero)
    (hupdated : Updated g c s ref removed g')
    (hother : eraseRef (translation g) removed other = some (c, s')) :
    other = ref := by
  obtain ⟨hbefore, hkept⟩ := eraseRef_eq_some.mp hother
  cases hlong : ieeeSearch g c with
  | none => exact absurd hbefore (ieeeSearch_none hinv.bound hlong other s')
  | some long =>
    obtain ⟨_, hused, hieee⟩ := ieeeSearch_eq_some hlong
    have hlong' : translation g long =
        some (c, (g.addrMap long).addr) :=
      translation_eq_some.mpr ⟨hused, hieee, rfl⟩
    have heq := hinv.unique.long other long c _ _ hbefore hlong' hc
    have hfound := hupdated.merge.eq_or_removed (inr (heq ▸ hlong))
    exact hfound.resolve_right hkept

theorem UniqueAddresses.eraseRef {map : TranslationMap} (hunique : UniqueAddresses map)
    (removed : Option ℕ) :
    UniqueAddresses (eraseRef map removed) := by
  cases removed with
  | none => exact hunique
  | some ref => exact hunique.erase ref

theorem Updated.invariant {g g' : AddrGlobals} {c : IeeeAddrCompressed} {s ref : ℕ}
    {removed : Option ℕ}
    (hindex : ShortIndex g) (hinv : TranslationInvariant g)
    (hs : s ≠ unknownShort)
    (hlt : c.devManufacturer < devManufacturerTableSize)
    (hused : g.usedManufacturer c.devManufacturer = true)
    (hupdated : Updated g c s ref removed g') :
    TranslationInvariant g' := by
  constructor
  · intro other hother
    by_cases heq : other = ref
    · rw [heq]
      exact hupdated.lt
    · rw [hupdated.map, update_of_ne heq] at hother
      obtain ⟨pair, hpair⟩ := ne_none_iff_exists'.mp hother
      exact hinv.bound other (by simp [(eraseRef_eq_some.mp hpair).1])
  · rw [hupdated.map]
    apply (hinv.unique.eraseRef removed).assign
    · intro _ other c' hother
      exact hupdated.short_eq hindex hinv hs hother
    · intro hc other s' hother
      exact hupdated.long_eq hinv hc hother
  · apply hinv.manufacturers.congr hupdated.usedManufacturer hupdated.devManufacturer
    intro other c' s' hother hc'
    by_cases heq : other = ref
    · rw [hupdated.map, heq, update_self, some.injEq, Prod.mk.injEq] at hother
      rw [← hother.1]
      exact ⟨hlt, hused⟩
    · rw [hupdated.map, update_of_ne heq] at hother
      exact hinv.manufacturers.pointed other c' s' (eraseRef_eq_some.mp hother).1 hc'

theorem TranslationInvariant.lockResult {g g' : AddrGlobals} {ret ret' : Except RetError ℕ}
    (hinv : TranslationInvariant g)
    (hresult : lockResult lock g ret = some (g', ret')) :
    TranslationInvariant g' :=
  hinv.sameTranslation (sameTranslation_lockResult hresult)

theorem TranslationInvariant.zbAddressByIeee {g g' : AddrGlobals} {create lock : Bool}
    (hinv : TranslationInvariant g)
    (hcall : zbAddressByIeee g ieee create lock = some (g', ret)) :
    TranslationInvariant g' := by
  obtain ⟨g₁, c, hcompress, hcases⟩ := zbAddressByIeee_eq_some hcall
  obtain ⟨hinv₁, hin, _⟩ := hinv.compressed hcompress
  rcases hcases with ⟨ref, _, _, hlock⟩ | ⟨_, _, rfl, _⟩ |
    ⟨hnone, _, g₂, ret', hadd, hlock⟩
  · have hmarked :=
      hinv₁.sameTranslation (sameTable_markClock g₁ ref).sameTranslation
    exact hmarked.lockResult hlock
  · exact hinv₁
  · rcases addrAdd_eq_some hadd with ⟨_, _, rfl⟩ | ⟨i, _, hadded⟩
    · exact hinv₁.lockResult hlock
    · have hinv₂ : TranslationInvariant g₂ := by
        apply hinv₁.addedAt hadded
        · intro hs
          exact absurd rfl hs
        · intro c' hc' p s'
          obtain rfl := some.inj hc'
          exact ieeeSearch_none hinv₁.bound hnone p s'
        · intro c' hc'
          obtain rfl := some.inj hc'
          exact ⟨hin.lt, hin.used⟩
      exact hinv₂.lockResult hlock

theorem TranslationInvariant.zbAddressByShort
    {g g' : AddrGlobals} {s : ℕ} {create lock : Bool}
    (hindex : ShortIndex g) (hinv : TranslationInvariant g)
    (hcall : zbAddressByShort g s create lock = some (g', ret)) :
    TranslationInvariant g' := by
  rcases zbAddressByShort_eq_some hcall with ⟨ref, _, _, hlock⟩ |
    ⟨_, _, rfl, _⟩ | ⟨hnone, _, g₂, ret', hadd, hlock⟩
  · have hmarked :=
      hinv.sameTranslation (sameTable_markClock g ref).sameTranslation
    exact hmarked.lockResult hlock
  · exact hinv
  · rcases addrAdd_eq_some hadd with ⟨_, _, rfl⟩ | ⟨i, _, hadded⟩
    · exact hinv.lockResult hlock
    · have hinv₂ : TranslationInvariant g₂ := by
        apply hinv.addedAt hadded
        · intro hs p c'
          exact hindex.shortSearch_none hinv.bound hnone hs p c'
        · intro c' hc'
          contradiction
        · intro c' hc'
          contradiction
      exact hinv₂.lockResult hlock

theorem TranslationInvariant.zbAddressUpdate {g g' : AddrGlobals} {s : ℕ}
    (hindex : ShortIndex g) (hinv : TranslationInvariant g)
    (hs : s ≠ unknownShort)
    (hcall : zbAddressUpdate g ieee s lock = some (g', ret)) :
    TranslationInvariant g' := by
  cases ret with
  | ok ref =>
    obtain ⟨g₁, c, removed, hcompress, hupdated⟩ := zbAddressUpdate_updated hindex hcall
    obtain ⟨hinv₁, hin, _⟩ := hinv.compressed hcompress
    exact hupdated.invariant (hindex.zbIeeeAddrCompress hcompress) hinv₁ hs hin.lt hin.used
  | error err =>
    obtain ⟨g₁, c, hcompress, hcases⟩ := zbAddressUpdate_eq_some hcall
    obtain ⟨hinv₁, _, _⟩ := hinv.compressed hcompress
    rcases hcases with ⟨_, _, _, _, _, hok, _⟩ | ⟨_, _, g₂, ret', hadd, hlock⟩
    · contradiction
    · obtain ⟨rfl, _⟩ := lockResult_eq_some hlock
      rcases addrAdd_eq_some hadd with ⟨_, _, rfl⟩ | ⟨i, hok, _⟩
      · exact hinv₁.lockResult hlock
      · contradiction

theorem TranslationInvariant.apply {g g' : AddrGlobals} {call : AddressCall}
    (hindex : ShortIndex g) (hinv : TranslationInvariant g)
    (hallowed : call.Allowed g)
    (happly : call.apply g = some g') :
    TranslationInvariant g' := by
  cases call with
  | byIeee ieee create lock =>
    simp only [AddressCall.apply, map_eq_some_iff] at happly
    obtain ⟨⟨_, ret⟩, hresult, rfl⟩ := happly
    exact hinv.zbAddressByIeee hresult
  | byShort shortAddress create lock =>
    simp only [AddressCall.apply, map_eq_some_iff] at happly
    obtain ⟨⟨_, ret⟩, hresult, rfl⟩ := happly
    exact hinv.zbAddressByShort hindex hresult
  | update ieee shortAddress lock =>
    simp only [AddressCall.apply, map_eq_some_iff] at happly
    obtain ⟨⟨_, ret⟩, hresult, rfl⟩ := happly
    exact hinv.zbAddressUpdate hindex hallowed hresult
  | delete ref =>
    obtain rfl := some.inj happly
    exact hinv.zbAddressDelete ref

theorem addressInvariants_of_run {calls : List AddressCall} {g : AddrGlobals}
    (halong : AlongRun AddressCall.apply
        (fun g call => call.Allowed g ∧ call.NoStaleCopy g)
        zeroed calls)
    (hrun : run AddressCall.apply zeroed calls = some g) :
    ShortIndex g ∧ TranslationInvariant g := by
  have hstep : ∀ g call g', ShortIndex g ∧ TranslationInvariant g →
      (AddressCall.Allowed g call ∧ call.NoStaleCopy g) →
      AddressCall.apply g call = some g' →
      ShortIndex g' ∧ TranslationInvariant g' := by
    rintro g call g' ⟨hindex, hinv⟩ hcall happly
    exact ⟨hindex.apply hcall happly, hinv.apply hindex hcall.1 happly⟩
  exact invariant_of_run hstep ⟨shortIndex_zeroed, translationInvariant_zeroed⟩ halong hrun

/-! ## What an update promises -/

def entryIeee (g : AddrGlobals) (ref : ℕ) : IeeeAddr :=
  zbIeeeAddrDecompress g (g.addrMap ref).ieeeAddr

/-- The update of `a` and `s` which has returned `ref` did what it is for. -/
structure UpdateCorrect
    (g : AddrGlobals) (a : IeeeAddr) (s : ℕ) (g' : AddrGlobals) (ref : ℕ) :
    Prop where
  byShort : ∃ g'', zbAddressByShort g' s false false = some (g'', .ok ref)
  byIeee : ∃ g'', zbAddressByIeee g' a false false = some (g'', .ok ref)
  entry : (g'.addrMap ref).used = true ∧ entryIeee g' ref = a ∧ (g'.addrMap ref).addr = s
  unique : ∀ other, other ≠ ref → (g'.addrMap other).used = true →
    (g'.addrMap other).addr ≠ s ∧ entryIeee g' other ≠ a
  frame : ∀ other, other ≠ ref → (g.addrMap other).used = true →
    (g.addrMap other).addr ≠ s → entryIeee g other ≠ a →
    (g'.addrMap other).used = true ∧ entryIeee g' other = entryIeee g other ∧
      (g'.addrMap other).addr = (g.addrMap other).addr

/-- A used entry with the all-zero compressed address: one which was created
from a short address alone. -/
def Blank (g : AddrGlobals) (ref : ℕ) : Prop :=
  (g.addrMap ref).used = true ∧ (g.addrMap ref).ieeeAddr = .zero

/-- No blank entry is taken for the entry of `a`.  Only an address whose
manufacturer is in slot 0 is at risk.  If the slot has been in use before, a
blank entry reads as the address with device id zero; if the update allocates
the slot, all blank entries change what they read as. -/
def BlankSafe (g : AddrGlobals) (a : IeeeAddr) (s : ℕ) : Prop :=
  ∀ g₁ c, zbIeeeAddrCompress g a = some (g₁, c) → c.devManufacturer = 0 →
    if g.usedManufacturer 0 then
      c = .zero → ∀ other, Blank g other →
        shortSearch g s = some other ∨ ieeeSearch g₁ c = some other
    else
      a.deviceManufacturer ≠ .zero → ∀ other, Blank g other →
        shortSearch g s = some other ∨ (ieeeSearch g₁ c = some other ∧
            ∀ short, shortSearch g s = some short → (g.addrMap short).lockCnt = 0)

theorem entryIeee_of_translation {g : AddrGlobals} {ref s : ℕ} {c : IeeeAddrCompressed}
    (hentry : translation g ref = some (c, s)) :
    entryIeee g ref = ⟨g.devManufacturer c.devManufacturer, c.deviceId⟩ := by
  obtain ⟨_, hieee, _⟩ := translation_eq_some.mp hentry
  rw [entryIeee, hieee, zbIeeeAddrDecompress]

theorem translation_of_used
    {g : AddrGlobals} {ref : ℕ} (hused : (g.addrMap ref).used = true) :
    translation g ref =
      some ((g.addrMap ref).ieeeAddr, (g.addrMap ref).addr) :=
  translation_eq_some.mpr ⟨hused, rfl, rfl⟩

theorem IeeeAddrCompressed.eq_of_fields {c c' : IeeeAddrCompressed}
    (hdev : c.devManufacturer = c'.devManufacturer)
    (hid : c.deviceId = c'.deviceId) : c = c' := by
  cases c
  cases c'
  simp_all

section UpdateOutcome

variable {g g₁ g' : AddrGlobals} {a : IeeeAddr} {c : IeeeAddrCompressed}
variable {s ref : ℕ} {removed : Option ℕ}

variable {other : ℕ}

theorem Updated.translation_of_ne (hupdated : Updated g₁ c s ref removed g')
    (hother : other ≠ ref) {pair : IeeeAddrCompressed × ℕ} :
    translation g' other = some pair ↔
      translation g₁ other = some pair ∧ removed ≠ some other := by
  rw [hupdated.map, update_of_ne hother, eraseRef_eq_some]

theorem CompressedIn.devManufacturer_eq
    (hinv : TranslationInvariant g) (hin : CompressedIn g a g₁ c)
    {other s' : ℕ} {c' : IeeeAddrCompressed}
    (hentry : translation g other = some (c', s'))
    (hblank : c' = .zero → c.devManufacturer = 0 →
      g.usedManufacturer 0 = false → a.deviceManufacturer = .zero) :
    g₁.devManufacturer c'.devManufacturer = g.devManufacturer c'.devManufacturer := by
  by_cases hslot : c'.devManufacturer = c.devManufacturer
  swap
  · exact (hin.others _ hslot).2
  rw [hslot, hin.slot]
  rcases hin.before with ⟨_, heq⟩ | ⟨hfree, _⟩
  · exact heq.symm
  · rw [hinv.manufacturers.free _ hin.lt hfree]
    by_cases hc' : c' = .zero
    · have hzero : c.devManufacturer = 0 := by
        rw [← hslot, hc']
        rfl
      rw [hzero] at hfree
      exact hblank hc' hzero hfree
    · obtain ⟨_, hused⟩ := hinv.manufacturers.pointed other c' s' hentry hc'
      rw [hslot, hfree] at hused
      contradiction

theorem CompressedIn.manufacturer_ne_zero
    (hin : CompressedIn g a g₁ c) (ha : a ≠ .zero) (hzero : c = .zero) :
    a.deviceManufacturer ≠ .zero := by
  intro heq
  apply ha
  have hid := hin.deviceId
  rw [hzero] at hid
  cases a
  simp_all [IeeeAddr.zero, IeeeAddrCompressed.zero]

theorem BlankSafe.found (hsafe : BlankSafe g a s) (ha : a ≠ .zero)
    (hcompress : zbIeeeAddrCompress g a = some (g₁, c))
    (hin : CompressedIn g a g₁ c)
    (hblank : Blank g other)
    (hzero : c = .zero) :
    shortSearch g s = some other ∨ ieeeSearch g₁ c = some other := by
  have hslot : c.devManufacturer = 0 := by
    rw [hzero]
    rfl
  have hsafe' := hsafe g₁ c hcompress hslot
  by_cases hused : g.usedManufacturer 0 = true
  · rw [if_pos hused] at hsafe'
    exact hsafe' hzero other hblank
  · rw [if_neg hused] at hsafe'
    rcases hsafe' (hin.manufacturer_ne_zero ha hzero) other hblank with hshort | ⟨hlong, _⟩
    · exact inl hshort
    · exact inr hlong

theorem shortSearch_compressed (hcompress : zbIeeeAddrCompress g a = some (g₁, c)) :
    shortSearch g₁ s = shortSearch g s := by
  obtain ⟨_, _, _, rfl⟩ := zbIeeeAddrCompress_eq_some hcompress
  rfl

theorem Updated.compressed_eq (ha : a ≠ .zero)
    (hinv : TranslationInvariant g) (hinv₁ : TranslationInvariant g₁)
    (hin : CompressedIn g a g₁ c)
    (hupdated : Updated g₁ c s ref removed g')
    {other s' : ℕ} {c' : IeeeAddrCompressed} (hother : other ≠ ref)
    (hentry : translation g' other = some (c', s'))
    (hreads : entryIeee g' other = a) :
    c' = c := by
  rw [entryIeee_of_translation hentry, hupdated.devManufacturer] at hreads
  have hdev : g₁.devManufacturer c'.devManufacturer = a.deviceManufacturer := by
    rw [← hreads]
  have hid : c'.deviceId = c.deviceId := by rw [hin.deviceId, ← hreads]
  obtain ⟨hbefore, _⟩ := (hupdated.translation_of_ne hother).mp hentry
  apply IeeeAddrCompressed.eq_of_fields _ hid
  by_cases hc' : c' = .zero
  · by_contra hslot
    have hslot' : (0 : ℕ) ≠ c.devManufacturer := by
      intro heq
      apply hslot
      rw [hc']
      exact heq
    rw [hc'] at hdev
    have hdev' : g₁.devManufacturer 0 = a.deviceManufacturer := hdev
    by_cases hused : g.usedManufacturer 0 = true
    · rcases hin.before with ⟨hused', heq⟩ | ⟨_, hnone⟩
      · rw [(hin.others 0 hslot').2, ← heq] at hdev'
        exact hslot' (hinv.manufacturers.distinct 0 _ (by decide) hin.lt hused
          hused' hdev')
      · rw [(hin.others 0 hslot').2] at hdev'
        exact hnone 0 (by decide) hused hdev'
    · have hfree := hinv.manufacturers.free 0 (by decide) (by simpa using hused)
      rw [(hin.others 0 hslot').2, hfree] at hdev'
      apply ha
      rw [← hreads, hc', IeeeAddr.zero]
      simp only [IeeeAddrCompressed.zero, (hin.others 0 hslot').2, hfree]
  · obtain ⟨hlt, hused⟩ :=
      hinv₁.manufacturers.pointed other c' s' hbefore hc'
    exact hinv₁.manufacturers.distinct _ _ hlt hin.lt hused hin.used
      (hdev.trans hin.slot.symm)

section

variable (hsafe : BlankSafe g a s) (ha : a ≠ .zero)
  (hcompress : zbIeeeAddrCompress g a = some (g₁, c))

include hsafe ha hcompress

theorem Updated.entryIeee_ne
    (hinv : TranslationInvariant g) (hinv₁ : TranslationInvariant g₁)
    (hin : CompressedIn g a g₁ c)
    (hmap : translation g₁ = translation g)
    (hupdated : Updated g₁ c s ref removed g')
    (hother : other ≠ ref)
    (hused : (g'.addrMap other).used = true) :
    entryIeee g' other ≠ a := by
  intro hreads
  have hentry := translation_of_used hused
  have hc := hupdated.compressed_eq ha hinv hinv₁ hin hother hentry hreads
  rw [hc] at hentry
  obtain ⟨hbefore, hkept⟩ := (hupdated.translation_of_ne hother).mp hentry
  by_cases hzero : c = .zero
  · have hblank : Blank g other := by
      rw [hmap] at hbefore
      obtain ⟨hused', hieee, _⟩ := translation_eq_some.mp hbefore
      exact ⟨hused', hieee.trans hzero⟩
    have hfound := hsafe.found ha hcompress hin hblank hzero
    rw [← shortSearch_compressed hcompress] at hfound
    rcases hupdated.merge.eq_or_removed hfound with heq | hremoved
    · exact hother heq
    · exact hkept hremoved
  · exact hother (hupdated.long_eq hinv₁ hzero (eraseRef_eq_some.mpr ⟨hbefore, hkept⟩))

theorem Updated.frame (hindex : ShortIndex g) (hinv : TranslationInvariant g)
    (hin : CompressedIn g a g₁ c)
    (hmap : translation g₁ = translation g)
    (hupdated : Updated g₁ c s ref removed g')
    (hother : other ≠ ref)
    (hused : (g.addrMap other).used = true)
    (hshort : (g.addrMap other).addr ≠ s)
    (hreads : entryIeee g other ≠ a) :
    (g'.addrMap other).used = true ∧ entryIeee g' other = entryIeee g other ∧
      (g'.addrMap other).addr = (g.addrMap other).addr := by
  have hentry := translation_of_used hused
  have hnotShort : shortSearch g s ≠ some other := by
    intro hsearch
    exact hshort (hindex.shortSearch_eq_some hsearch).2
  -- A blank entry at risk has been found, by its long address only.
  have hrisk : (g.addrMap other).ieeeAddr = .zero → c.devManufacturer = 0 →
      g.usedManufacturer 0 = false → a.deviceManufacturer ≠ .zero →
      ieeeSearch g₁ c = some other ∧ ∀ short, shortSearch g s = some short →
          (g.addrMap short).lockCnt = 0 := by
    intro hzero hslot hfree hmanufacturer
    have hsafe' := hsafe g₁ c hcompress hslot
    rw [if_neg (by simpa using hfree)] at hsafe'
    exact (hsafe' hmanufacturer other ⟨hused, hzero⟩).resolve_left hnotShort
  have hmerge := hupdated.merge
  rw [shortSearch_compressed hcompress,
    (sameEntries_zbIeeeAddrCompress hcompress).1] at hmerge
  have hkept : removed ≠ some other := by
    intro hremoved
    rw [hremoved] at hmerge
    rcases hmerge.removed_cases with ⟨hsearch, _, _⟩ | ⟨hsearch, hlong, hlocked⟩
    · exact hnotShort hsearch
    have hieee : (g.addrMap other).ieeeAddr = c := by
      rw [← (ieeeSearch_eq_some hlong).2.2, (sameEntries_zbIeeeAddrCompress hcompress).1]
    rw [hieee] at hentry
    rcases hin.before with ⟨_, heq⟩ | ⟨hfree, _⟩
    · apply hreads
      rw [entryIeee_of_translation hentry, heq, hin.deviceId]
    · by_cases hzero : c = .zero
      · have hslot : c.devManufacturer = 0 := by
          rw [hzero]
          rfl
        rw [hslot] at hfree
        obtain ⟨_, hunlocked⟩ := hrisk (hieee.trans hzero) hslot hfree
          (hin.manufacturer_ne_zero ha hzero)
        exact hlocked (hunlocked ref hsearch)
      · have hused' := (hinv.manufacturers.pointed other c _ hentry hzero).2
        rw [hfree] at hused'
        contradiction
  have hafter : translation g' other =
      some ((g.addrMap other).ieeeAddr, (g.addrMap other).addr) := by
    rw [hupdated.translation_of_ne hother, hmap]
    exact ⟨hentry, hkept⟩
  obtain ⟨hused', _, haddr⟩ := translation_eq_some.mp hafter
  refine ⟨hused', ?_, haddr⟩
  rw [entryIeee_of_translation hafter, entryIeee_of_translation hentry,
    hupdated.devManufacturer, hin.devManufacturer_eq hinv hentry]
  intro hzero hslot hfree
  by_contra hmanufacturer
  obtain ⟨hlong, _⟩ := hrisk hzero hslot hfree hmanufacturer
  rcases hmerge.eq_or_removed (inr hlong) with heq | hremoved
  · exact hother heq
  · exact hkept hremoved

end

theorem Updated.blankSafe (ha : a ≠ .zero) (hs : s ≠ unknownShort)
    (hcompress : zbIeeeAddrCompress g a = some (g₁, c))
    (hindex : ShortIndex g) (hinv : TranslationInvariant g)
    (hin : CompressedIn g a g₁ c)
    (hmap : translation g₁ = translation g)
    (hupdated : Updated g₁ c s ref removed g')
    (hcorrect : UpdateCorrect g a s g' ref) :
    BlankSafe g a s := by
  intro g₂ c₂ hcompress₂ hslot
  rw [hcompress, some.injEq, Prod.mk.injEq] at hcompress₂
  obtain ⟨rfl, rfl⟩ := hcompress₂
  have hmerge := hupdated.merge
  rw [shortSearch_compressed hcompress,
    (sameEntries_zbIeeeAddrCompress hcompress).1] at hmerge
  have hdev : g'.devManufacturer 0 = a.deviceManufacturer := by
    rw [hupdated.devManufacturer, ← hslot]
    exact hin.slot
  by_cases hused : g.usedManufacturer 0 = true
  · rw [if_pos hused]
    intro hzero other hblank
    by_contra hnot
    have hentry : translation g₁ other =
        some (.zero, (g.addrMap other).addr) := by
      rw [hmap]
      exact translation_eq_some.mpr ⟨hblank.1, hblank.2, rfl⟩
    have hne : other ≠ ref := by
      intro heq
      rcases hmerge.ref_found with ⟨hshort, hlong⟩ | hshort | ⟨hlong, _⟩
      · apply ieeeSearch_none _ hlong other _ (hzero ▸ hentry)
        rw [hmap]
        exact hinv.bound
      · exact hnot (inl (heq ▸ hshort))
      · exact hnot (inr (heq ▸ hlong))
    have hkept : removed ≠ some other := by
      intro hremoved
      rw [hremoved] at hmerge
      rcases hmerge.removed_cases with ⟨hshort, _, _⟩ | ⟨_, hlong, _⟩
      · exact hnot (inl hshort)
      · exact hnot (inr hlong)
    have hafter := (hupdated.translation_of_ne hne).mpr ⟨hentry, hkept⟩
    apply (hcorrect.unique other hne (translation_eq_some.mp hafter).1).2
    rw [entryIeee_of_translation hafter]
    have hid := hin.deviceId
    rw [hzero] at hid
    exact congrArg₂ IeeeAddr.mk hdev hid
  · rw [if_neg hused]
    intro hmanufacturer other hblank
    by_contra hnot
    have hentry : translation g other =
        some (.zero, (g.addrMap other).addr) :=
      translation_eq_some.mpr ⟨hblank.1, hblank.2, rfl⟩
    have hfree := hinv.manufacturers.free 0 (by decide) (by simpa using hused)
    have hne : other ≠ ref := by
      intro heq
      rcases hmerge.ref_found with ⟨hshort, hlong⟩ | hshort | hlong
      · rw [← shortSearch_compressed hcompress] at hshort
        have hfresh := hupdated.fresh hshort hlong
        rw [hmap, ← heq, hentry] at hfresh
        contradiction
      · exact hnot (inl (heq ▸ hshort))
      · exact hnot (inr (heq ▸ hlong))
    have hshort : (g.addrMap other).addr ≠ s := by
      intro haddr
      rw [haddr] at hentry
      cases hsearch : shortSearch g s with
      | none => exact hindex.shortSearch_none hinv.bound hsearch hs other _ hentry
      | some short =>
        obtain ⟨⟨_, hused', _⟩, haddr'⟩ := hindex.shortSearch_eq_some hsearch
        have heq := hinv.unique.short other short _ _ s hentry
          (translation_eq_some.mpr ⟨hused', rfl, haddr'⟩) hs
        exact hnot (inl (heq ▸ hsearch))
    have hreads : entryIeee g other = .zero := by
      rw [entryIeee_of_translation hentry]
      exact congrArg₂ IeeeAddr.mk hfree rfl
    obtain ⟨hused', hsame, _⟩ := hcorrect.frame other hne hblank.1 hshort
      (by rw [hreads]; exact ha.symm)
    have hafter := translation_of_used hused'
    obtain ⟨hbefore, _⟩ := (hupdated.translation_of_ne hne).mp hafter
    rw [hmap, hentry, some.injEq, Prod.mk.injEq] at hbefore
    rw [entryIeee_of_translation hafter, hreads, ← hbefore.1] at hsame
    have hdev' : g'.devManufacturer 0 = .zero := congrArg IeeeAddr.deviceManufacturer hsame
    exact hmanufacturer (hdev.symm.trans hdev')

end UpdateOutcome

theorem shortSearch_of_translation {g : AddrGlobals} {c : IeeeAddrCompressed} {s ref : ℕ}
    (hindex : ShortIndex g) (hinv : TranslationInvariant g)
    (hs : s ≠ unknownShort)
    (hentry : translation g ref = some (c, s)) :
    shortSearch g s = some ref := by
  cases hsearch : shortSearch g s with
  | none => exact absurd hentry (hindex.shortSearch_none hinv.bound hsearch hs ref c)
  | some short =>
    obtain ⟨⟨_, hused, _⟩, haddr⟩ := hindex.shortSearch_eq_some hsearch
    have hshort := translation_eq_some.mpr ⟨hused, rfl, haddr⟩
    rw [hinv.unique.short short ref _ c s hshort hentry hs]

theorem zbAddressByIeee_of_unique
    {g : AddrGlobals} {a : IeeeAddr} {c : IeeeAddrCompressed} {s ref : ℕ}
    (hinv : TranslationInvariant g)
    (hlt : c.devManufacturer < devManufacturerTableSize)
    (hused : g.usedManufacturer c.devManufacturer = true)
    (hentry : translation g ref = some (c, s))
    (hreads : entryIeee g ref = a)
    (hunique : ∀ other, other ≠ ref → (g.addrMap other).used = true →
      entryIeee g other ≠ a) :
    ∃ g', zbAddressByIeee g a false false = some (g', .ok ref) := by
  rw [entryIeee_of_translation hentry] at hreads
  have hslot : manufacturerSlot g a.deviceManufacturer =
      some c.devManufacturer := by
    rw [← hreads]
    exact manufacturerSlot_of_used hinv.manufacturers hlt hused
  have hcompressed : (⟨c.devManufacturer, a.deviceId⟩ : IeeeAddrCompressed) = c := by
    rw [← hreads]
  have hcompress :
      ∃ g₁, zbIeeeAddrCompress g a = some (g₁, c) ∧ g₁.addrMap = g.addrMap := by
    simp only [zbIeeeAddrCompress, hslot, hcompressed]
    exact ⟨_, rfl, rfl⟩
  obtain ⟨g₁, hcompress, hmap⟩ := hcompress
  obtain ⟨hused', hieee, _⟩ := translation_eq_some.mp hentry
  have hsearch : ieeeSearch g₁ c = some ref := by
    apply CyclicProbe.probe_eq_of_unique
    · exact Nat.mod_lt _ (by decide)
    · exact hinv.bound ref (by simp [hentry])
    · simp [hmap, hused', hieee]
    · intro other _ haccept
      simp only [hmap, Bool.and_eq_true, beq_iff_eq] at haccept
      by_contra hne
      apply hunique other hne haccept.1
      rw [entryIeee_of_translation (translation_of_used haccept.1), haccept.2, hreads]
  refine ⟨g₁.markClock ref, ?_⟩
  simp [zbAddressByIeee, hcompress, hsearch, lockResult]

/-- In a state reached without a counted stale copy, an update which counts
none keeps its promise exactly if no blank entry is taken for the device. -/
theorem zbAddressUpdate_correct_iff
    {calls : List AddressCall} {g g' : AddrGlobals} {a : IeeeAddr}
    {s ref : ℕ} {lock : Bool}
    (halong : AlongRun AddressCall.apply
        (fun g call => call.Allowed g ∧ call.NoStaleCopy g)
        zeroed calls)
    (hrun : run AddressCall.apply zeroed calls = some g)
    (ha : a ≠ .zero) (hs : s ≠ unknownShort)
    (hclean : (AddressCall.update a s lock).NoStaleCopy g)
    (hcall : zbAddressUpdate g a s lock = some (g', .ok ref)) :
    UpdateCorrect g a s g' ref ↔ BlankSafe g a s := by
  obtain ⟨hindex, hinv⟩ := addressInvariants_of_run halong hrun
  obtain ⟨g₁, c, removed, hcompress, hupdated⟩ := zbAddressUpdate_updated hindex hcall
  obtain ⟨hinv₁, hin, hmap⟩ := hinv.compressed hcompress
  constructor
  · exact hupdated.blankSafe ha hs hcompress hindex hinv hin hmap
  intro hsafe
  have hindex' := hindex.zbAddressUpdate hs hclean hcall
  have hinv' := hinv.zbAddressUpdate hindex hs hcall
  have hentry : translation g' ref = some (c, s) := by rw [hupdated.map, update_self]
  obtain ⟨hused, _, haddr⟩ := translation_eq_some.mp hentry
  have hreads : entryIeee g' ref = a := by
    rw [entryIeee_of_translation hentry, hupdated.devManufacturer, hin.slot, hin.deviceId]
  have hunique : ∀ other, other ≠ ref → (g'.addrMap other).used = true →
      entryIeee g' other ≠ a := by
    intro other hother hused'
    exact hupdated.entryIeee_ne hsafe ha hcompress hinv hinv₁ hin hmap hother
      hused'
  have hslot : g'.usedManufacturer c.devManufacturer = true := by
    rw [hupdated.usedManufacturer]
    exact hin.used
  constructor
  · have hsearch := shortSearch_of_translation hindex' hinv' hs hentry
    refine ⟨g'.markClock ref, ?_⟩
    simp [zbAddressByShort, hsearch, lockResult]
  · exact zbAddressByIeee_of_unique hinv' hin.lt hslot hentry hreads hunique
  · exact ⟨hused, hreads, haddr⟩
  · intro other hother hused'
    refine ⟨?_, hunique other hother hused'⟩
    intro haddr'
    have hentry' := translation_of_used hused'
    rw [haddr'] at hentry'
    exact hother (hinv'.unique.short other ref _ c s hentry' hentry hs)
  · intro other hother hused' hshort hreads'
    exact hupdated.frame hsafe ha hcompress hindex hinv hin hmap hother hused'
      hshort hreads'

/-- An entry created by short address and one created by long address are
merged. -/
theorem zbAddressUpdate_correct_merge : ∃ g g' ref, run AddressCall.apply zeroed
          [.byShort 7 true false, .byIeee sampleIeee true false] = some g ∧
        zbAddressUpdate g sampleIeee 7 false = some (g', .ok ref) ∧
        UpdateCorrect g sampleIeee 7 g' ref := by
  have hresult : ((run AddressCall.apply zeroed
          [.byShort 7 true false, .byIeee sampleIeee true false]).bind
        (fun g => (zbAddressUpdate g sampleIeee 7 false).map (fun result =>
            (result.2.toOption,
              (zbIeeeAddrCompress g sampleIeee).map (·.2.devManufacturer),
              decide ((AddressCall.update sampleIeee 7 false).NoStaleCopy g)))))
        = some (some 51, some 15, true) := by
    decide +kernel
  obtain ⟨g, hrun, hmap⟩ := bind_eq_some_iff.mp hresult
  obtain ⟨⟨g', ret⟩, hcall, hobserved⟩ := map_eq_some_iff.mp hmap
  simp only [Prod.mk.injEq, decide_eq_true_eq] at hobserved
  obtain ⟨hret, hslot, hclean⟩ := hobserved
  cases ret with
  | error err => simp [Except.toOption] at hret
  | ok ref =>
      refine ⟨g, g', ref, hrun, hcall, ?_⟩
      apply (zbAddressUpdate_correct_iff (by decide +kernel) hrun (by decide)
        (by decide) hclean hcall).mpr
      intro g₁ c hcompress hzero
      rw [hcompress, map_some, some.injEq, hzero] at hslot
      contradiction

/-- Two entries are created by short address; fifteen look-ups then fill all
manufacturer slots but slot 0. -/
def blankEntriesRun : List AddressCall :=
  [.byShort 7 true false, .byShort 8 true false] ++ (List.range 15).map (fun k =>
      .byIeee ⟨⟨k.toUInt8 + 1, 0, 0⟩, .zero⟩ false false)

/-- The update of a sixteenth manufacturer's address makes a blank entry read
as that address, and the update of the address whose entry a counted stale
copy has dropped from the index adds a second entry for it. -/
theorem not_updateCorrect : (∃ g g' ref,
        AlongRun AddressCall.apply (fun g call => call.Allowed g) zeroed blankEntriesRun ∧
          run AddressCall.apply zeroed blankEntriesRun = some g ∧
          zbAddressUpdate g ⟨⟨16, 0, 0⟩, .zero⟩ 9 false = some (g', .ok ref) ∧
          ¬ UpdateCorrect g ⟨⟨16, 0, 0⟩, .zero⟩ 9 g' ref) ∧
      ∃ g g' ref, AlongRun AddressCall.apply (fun g call => call.Allowed g)
            zeroed staleCopyRun ∧
          run AddressCall.apply zeroed staleCopyRun = some g ∧
          zbAddressUpdate g sampleIeee 1 false = some (g', .ok ref) ∧
          ¬ UpdateCorrect g sampleIeee 1 g' ref := by
  constructor
  · have hresult : ((run AddressCall.apply zeroed blankEntriesRun).bind
          (fun g => (zbAddressUpdate g ⟨⟨16, 0, 0⟩, .zero⟩ 9 false).map (fun result =>
              (result.2.toOption, (result.1.addrMap 1).used, entryIeee result.1 1)))) =
          some (some 0, true, ⟨⟨16, 0, 0⟩, .zero⟩) := by
      decide +kernel
    obtain ⟨g, hrun, hmap⟩ := bind_eq_some_iff.mp hresult
    obtain ⟨⟨g', ret⟩, hcall, hobserved⟩ := map_eq_some_iff.mp hmap
    simp only [Prod.mk.injEq] at hobserved
    obtain ⟨hret, hused, hreads⟩ := hobserved
    cases ret with
    | error err => simp [Except.toOption] at hret
    | ok ref =>
        obtain rfl : ref = 0 := by simpa [Except.toOption] using hret
        refine ⟨g, g', 0, by decide +kernel, hrun, hcall, ?_⟩
        intro hcorrect
        exact (hcorrect.unique 1 (by decide) hused).2 hreads
  · have hresult : ((run AddressCall.apply zeroed staleCopyRun).bind
          (fun g => (zbAddressUpdate g sampleIeee 1 false).map (fun result =>
              (result.2.toOption, (result.1.addrMap 0).used,
                (result.1.addrMap 0).addr)))) =
          some (some 51, true, 1) := by
      decide +kernel
    obtain ⟨g, hrun, hmap⟩ := bind_eq_some_iff.mp hresult
    obtain ⟨⟨g', ret⟩, hcall, hobserved⟩ := map_eq_some_iff.mp hmap
    simp only [Prod.mk.injEq] at hobserved
    obtain ⟨hret, hused, haddr⟩ := hobserved
    cases ret with
    | error err => simp [Except.toOption] at hret
    | ok ref =>
        obtain rfl : ref = 51 := by simpa [Except.toOption] using hret
        refine ⟨g, g', 51, by decide +kernel, hrun, hcall, ?_⟩
        intro hcorrect
        exact (hcorrect.unique 0 (by decide) hused).1 haddr

end Zboss
