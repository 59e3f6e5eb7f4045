import Zboss.RejoinRequests
import Zboss.ReferencedEntries
import Zboss.NeighborRows

/-!
# Join indications after rejoins

The short addresses of outstanding rejoins are kept in an array which is used
as a stack, while their responses are confirmed in the order in which they were
sent.  With one response at a time the indication is about the right device.
-/

namespace Zboss

open Function Option List TransitionSystem

def KeepsLocks (g g' : AddrGlobals) : Prop :=
  ∀ ref, (g.addrMap ref).lockCnt ≠ 0 → (g'.addrMap ref).lockCnt ≠ 0

section Locks

variable {g g' g'' : AddrGlobals} {lock : Bool} {ret ret' : Except RetError ℕ}

theorem KeepsLocks.trans (hfirst : KeepsLocks g g') (hsecond : KeepsLocks g' g'') :
    KeepsLocks g g'' :=
  fun ref hlocked => hsecond ref (hfirst ref hlocked)

theorem keepsLocks_of_eq
    (hlockCnt : ∀ ref, (g'.addrMap ref).lockCnt = (g.addrMap ref).lockCnt) :
    KeepsLocks g g' := by
  intro ref hlocked
  rw [hlockCnt ref]
  exact hlocked

theorem keepsLocks_zbAddressLock {ref : ℕ} (hlock : zbAddressLock g ref = some g') :
    KeepsLocks g g' ∧ (g'.addrMap ref).lockCnt ≠ 0 := by
  obtain ⟨hwrap, rfl⟩ := zbAddressLock_eq_some hlock
  have hself : ((g.setEntry ref
      { g.addrMap ref with
        lockCnt := (g.addrMap ref).lockCnt + 1
        clock := true }).addrMap ref).lockCnt ≠ 0 := by
    simp only [AddrGlobals.setEntry, update_self]
    exact hwrap
  refine ⟨?_, hself⟩
  intro other hlocked
  by_cases hother : other = ref
  · exact hother ▸ hself
  · simp only [AddrGlobals.setEntry, update_of_ne hother]
    exact hlocked

theorem keepsLocks_lockResult (hresult : lockResult lock g ret = some (g', ret')) :
    KeepsLocks g g' ∧
      ∀ ref, lock = true → ret = .ok ref → (g'.addrMap ref).lockCnt ≠ 0 := by
  cases lock with
  | false =>
    obtain ⟨-, rfl | ⟨_, hfalse, -⟩⟩ := lockResult_eq_some hresult
    · exact ⟨fun _ h => h, fun _ hfalse => Bool.noConfusion hfalse⟩
    · contradiction
  | true =>
    cases ret with
    | error err =>
      obtain ⟨-, rfl | ⟨_, -, herror, -⟩⟩ := lockResult_eq_some hresult
      · exact ⟨fun _ h => h, fun _ _ herror => by contradiction⟩
      · contradiction
    | ok ref =>
      rw [lockResult, map_eq_some_iff] at hresult
      obtain ⟨locked, hlock, heq⟩ := hresult
      obtain ⟨rfl, -⟩ := Prod.mk.inj heq
      obtain ⟨hkeeps, hlocked⟩ := keepsLocks_zbAddressLock hlock
      refine ⟨hkeeps, ?_⟩
      intro other _ hok
      obtain rfl := Except.ok.inj hok
      exact hlocked

theorem keepsLocks_zbIeeeAddrCompress {ieee : IeeeAddr} {c : IeeeAddrCompressed}
    (hcompress : zbIeeeAddrCompress g ieee = some (g', c)) :
    KeepsLocks g g' := by
  apply keepsLocks_of_eq
  intro ref
  rw [(sameEntries_zbIeeeAddrCompress hcompress).1]

theorem AddedAt.keepsLocks {compressed : Option IeeeAddrCompressed} {shortAddr i : ℕ}
    (hadded : AddedAt g compressed shortAddr i g') : KeepsLocks g g' := by
  apply keepsLocks_of_eq
  intro ref
  by_cases href : ref = i
  · rw [href]
    exact hadded.lockCnt
  · exact (hadded.others ref href).lockCnt

theorem keepsLocks_zbAddressByIeee {ieee : IeeeAddr} {create : Bool}
    (hcall : zbAddressByIeee g ieee create lock = some (g', ret)) :
    KeepsLocks g g' := by
  obtain ⟨g₁, c, hcompress, hcases⟩ := zbAddressByIeee_eq_some hcall
  refine (keepsLocks_zbIeeeAddrCompress hcompress).trans ?_
  rcases hcases with ⟨ref, -, -, hlock⟩ | ⟨-, -, rfl, -⟩ | ⟨-, -, g₂, ret', hadd, hlock⟩
  · have hmarked : KeepsLocks g₁ (g₁.markClock ref) := keepsLocks_of_eq
      fun other => ((sameTable_markClock g₁ ref).entry other).lockCnt
    exact hmarked.trans (keepsLocks_lockResult hlock).1
  · exact fun _ h => h
  · rcases addrAdd_eq_some hadd with ⟨-, -, rfl⟩ | ⟨i, -, hadded⟩
    · exact (keepsLocks_lockResult hlock).1
    · exact hadded.keepsLocks.trans (keepsLocks_lockResult hlock).1

theorem keepsLocks_zbAddressUpdate {ieee : IeeeAddr} {s : ℕ}
    (hcall : zbAddressUpdate g ieee s lock = some (g', ret)) :
    KeepsLocks g g' ∧
      ∀ ref, lock = true → ret = .ok ref → (g'.addrMap ref).lockCnt ≠ 0 := by
  obtain ⟨g₁, c, hcompress, hcases⟩ := zbAddressUpdate_eq_some hcall
  have hfirst := keepsLocks_zbIeeeAddrCompress hcompress
  rcases hcases with ⟨g₂, found, g₃, htarget, hwritten, hret, hlock⟩ |
    ⟨-, -, g₂, ret', hadd, hlock⟩
  · obtain ⟨removed, -, -, rfl⟩ := updateTarget_merge htarget
    have hdeleted : KeepsLocks g₁ (deleteRef g₁ removed) := by
      apply keepsLocks_of_eq
      intro ref
      cases removed with
      | none => rfl
      | some other =>
        rw [deleteRef, zbAddressDelete_addrMap, update_apply]
        split
        · rename_i heq
          rw [heq]
        · rfl
    have hupdated : KeepsLocks (deleteRef g₁ removed) g₃ := by
      apply keepsLocks_of_eq
      intro ref
      rw [hwritten.addrMap, update_apply]
      split
      · rename_i heq
        rw [heq]
      · rfl
    obtain ⟨hlast, hlocked⟩ := keepsLocks_lockResult hlock
    refine ⟨((hfirst.trans hdeleted).trans hupdated).trans hlast, ?_⟩
    intro ref htrue hok
    rw [hret] at hok
    obtain rfl := Except.ok.inj hok
    exact hlocked found htrue rfl
  · obtain ⟨hlast, hlocked⟩ := keepsLocks_lockResult hlock
    obtain ⟨rfl, -⟩ := lockResult_eq_some hlock
    rcases addrAdd_eq_some hadd with ⟨-, -, rfl⟩ | ⟨i, -, hadded⟩
    · exact ⟨hfirst.trans hlast, hlocked⟩
    · exact ⟨(hfirst.trans hadded.keepsLocks).trans hlast, hlocked⟩

end Locks

/-! ## Tables -/

structure RejoinTables (zg : Globals) : Prop where
  index : ShortIndex zg.addr
  translation : TranslationInvariant zg.addr
  rows : RowsSound zg.neighbor
  locked : ∀ ref, zg.neighbor.addrToNeighbor ref ≠ noNeighbor →
    (zg.addr.addrMap ref).lockCnt ≠ 0

structure Registered (zg : Globals) (device : IeeeAddr) (s : ℕ)
    (capability : RejoinCapability) (ref : ℕ) : Prop where
  entry : ∃ c, translation zg.addr ref = some (c, s) ∧
    zg.addr.usedManufacturer c.devManufacturer = true ∧
    zbIeeeAddrDecompress zg.addr c = device
  row : zg.neighbor.addrToNeighbor ref ≠ noNeighbor
  same : capability.SameAs (zg.neighbor.baseNeighbor (zg.neighbor.addrToNeighbor ref))

section Tables

variable {zg zg' : Globals} {device : IeeeAddr} {s ref : ℕ} {capability : RejoinCapability}

theorem Registered.congr {except : ℕ → Prop} (hreg : Registered zg device s capability ref)
    (hkeeps : KeepsEntries zg.addr zg'.addr except) (hother : ¬ except ref)
    (hrow : zg'.neighbor.addrToNeighbor ref = zg.neighbor.addrToNeighbor ref)
    (hsame : ∀ n, n = zg.neighbor.addrToNeighbor ref →
      capability.SameAs (zg.neighbor.baseNeighbor n) →
        capability.SameAs (zg'.neighbor.baseNeighbor n)) :
    Registered zg' device s capability ref := by
  obtain ⟨⟨c, hentry, hused, hdecompress⟩, hpresent, hcapability⟩ := hreg
  obtain ⟨hused', hslot⟩ := hkeeps.slots _ hused
  refine ⟨⟨c, hkeeps.entry ref c s hentry hother, hused', ?_⟩, ?_, ?_⟩
  · rw [← hdecompress, zbIeeeAddrDecompress, zbIeeeAddrDecompress, hslot]
  · rw [hrow]
    exact hpresent
  · rw [hrow]
    exact hsame _ rfl hcapability

theorem zbNwkNeighborGet_find {row : Except RetError ℕ}
    (hget : zbNwkNeighborGet zg ref false = some (zg', row)) :
    zg' = zg ∧ row.toOption = if zg.neighbor.addrToNeighbor ref = noNeighbor then none
        else some (zg.neighbor.addrToNeighbor ref) := by
  rcases zbNwkNeighborGet_eq_some hget with
    ⟨rfl, ⟨hpresent, rfl⟩ | ⟨habsent, err, rfl⟩⟩ | ⟨-, hcreate, -⟩
  · exact ⟨rfl, (if_neg hpresent).symm⟩
  · exact ⟨rfl, (if_pos habsent).symm⟩
  · contradiction

theorem zbNwkNeighborGetByIeee_spec {row : Option ℕ} (htables : RejoinTables zg)
    (hget : zbNwkNeighborGetByIeee zg device = some (zg', row)) :
    zg'.neighbor = zg.neighbor ∧ RejoinTables zg' ∧
      (∀ except, KeepsEntries zg.addr zg'.addr except) ∧
      ∀ n, row = some n → ∃ ref c s, zg.neighbor.addrToNeighbor ref = n ∧
        n ≠ noNeighbor ∧ translation zg'.addr ref = some (c, s) ∧
        zg'.addr.usedManufacturer c.devManufacturer = true ∧
        zbIeeeAddrDecompress zg'.addr c = device := by
  obtain ⟨⟨addr, ret⟩, hlookup, hrest⟩ := bind_eq_some_iff.mp hget
  have htables' : RejoinTables { zg with addr := addr } :=
    ⟨htables.index.zbAddressByIeee hlookup,
      htables.translation.zbAddressByIeee hlookup, htables.rows,
      fun other hother => keepsLocks_zbAddressByIeee hlookup other
        (htables.locked other hother)⟩
  have hkeeps := fun except => (zbAddressByIeee_keeps hlookup except).1
  obtain ⟨g₁, c, hcompress, hkeeps₁, hresult⟩ := zbAddressByIeee_effect hlookup
  have hin := compressedIn_of_zbIeeeAddrCompress hcompress
  cases ret with
  | ok ref =>
    obtain ⟨⟨zg₁, row₁⟩, hneighbor, heq⟩ := bind_eq_some_iff.mp hrest
    obtain ⟨hsame, hrow⟩ := zbNwkNeighborGet_find hneighbor
    obtain ⟨rfl, rfl⟩ := some_pair_inj heq
    subst hsame
    refine ⟨rfl, htables', hkeeps, ?_⟩
    intro n hn
    rw [hrow] at hn
    split at hn
    · contradiction
    · rename_i hpresent
      obtain ⟨s, hentry⟩ := hresult ref rfl
      obtain ⟨hused, hslot⟩ := (hkeeps₁ fun _ => False).slots _ hin.used
      refine ⟨ref, c, s, some.inj hn, some.inj hn ▸ hpresent, hentry, hused, ?_⟩
      rw [zbIeeeAddrDecompress, hslot, hin.slot, hin.deviceId]
  | error err =>
    obtain ⟨rfl, rfl⟩ := some_pair_inj hrest
    exact ⟨rfl, htables', hkeeps, fun _ hn => by contradiction⟩

theorem Registered.ref_ne {other : IeeeAddr} {ref' s' : ℕ} {c : IeeeAddrCompressed}
    (hreg : Registered zg other s capability ref)
    (hentry : translation zg.addr ref' = some (c, s'))
    (hdecompress : zbIeeeAddrDecompress zg.addr c = device)
    (hother : other ≠ device) : ref ≠ ref' := by
  rintro rfl
  obtain ⟨c', hentry', -, hdecompress'⟩ := hreg.entry
  rw [hentry, some.injEq, Prod.mk.injEq] at hentry'
  rw [← hentry'.1, hdecompress] at hdecompress'
  exact hother hdecompress'.symm

theorem RejoinTables.sameTranslation {addr : AddrGlobals} (htables : RejoinTables zg)
    (hsame : SameTranslation zg.addr addr)
    (hlocked : ∀ ref, zg.neighbor.addrToNeighbor ref ≠ noNeighbor →
      (addr.addrMap ref).lockCnt ≠ 0) :
    RejoinTables { zg with addr := addr } :=
  ⟨htables.index.sameTranslation hsame,
    htables.translation.sameTranslation hsame, htables.rows, hlocked⟩

theorem Registered.deleteOther {other : ℕ} (hreg : Registered zg device s capability ref)
    (hother : ref ≠ other) :
    Registered (zbNwkNeighborDelete zg other).1 device s capability ref := by
  have hkeeps := (SameTable.refl zg.addr).sameTranslation.keepsEntries fun _ => False
  unfold zbNwkNeighborDelete
  dsimp only
  split
  · refine hreg.congr hkeeps not_false ?_ ?_
    · exact update_of_ne hother ..
    · intro n _ hsame
      dsimp only [NeighborTbl.setRow, NeighborTbl.setNeighbor]
      rw [update_apply]
      split
      · rename_i heq
        rw [heq] at hsame
        exact hsame
      · exact hsame
  · exact hreg

theorem RejoinTables.delete (htables : RejoinTables zg) (other : ℕ) :
    RejoinTables (zbNwkNeighborDelete zg other).1 := by
  obtain ⟨haddr, hrows, hgone, hothers⟩ := zbNwkNeighborDelete_rows htables.rows other
  refine ⟨?_, ?_, hrows, ?_⟩
  · rw [haddr]
    exact htables.index
  · rw [haddr]
    exact htables.translation
  · intro ref hrow
    have hne : ref ≠ other := by
      rintro rfl
      exact hrow hgone
    rw [hothers ref hne] at hrow
    rw [haddr]
    exact htables.locked ref hrow

theorem knownChild_spec {known : Option ℕ} (htables : RejoinTables zg)
    (hknown : knownChild zg device capability = some (zg', known)) :
    RejoinTables zg' ∧ (∀ other s cap ref, other ≠ device → Registered zg other s cap ref →
        Registered zg' other s cap ref) ∧
      ∀ n, known = some n → Registered zg' device
          (zg'.addr.addrMap (zg'.neighbor.baseNeighbor n).addrRef).addr
          capability (zg'.neighbor.baseNeighbor n).addrRef ∧
        zg'.neighbor.addrToNeighbor (zg'.neighbor.baseNeighbor n).addrRef =
          n := by
  obtain ⟨⟨zg₁, row⟩, hget, hrest⟩ := bind_eq_some_iff.mp hknown
  obtain ⟨hneighbor, htables₁, hkeeps, hfound⟩ := zbNwkNeighborGetByIeee_spec htables hget
  have hothers : ∀ other s cap ref, Registered zg other s cap ref →
      Registered zg₁ other s cap ref := by
    intro other s cap ref hreg
    refine hreg.congr (hkeeps fun _ => False) not_false ?_ ?_
    · rw [hneighbor]
    · intro n _ hsame
      rw [hneighbor]
      exact hsame
  cases row with
  | none =>
    obtain ⟨rfl, rfl⟩ := some_pair_inj hrest
    exact ⟨htables₁, fun other s cap ref _ => hothers other s cap ref,
      fun _ hn => by contradiction⟩
  | some n =>
    obtain ⟨ref, c, s, hrow, hn, hentry, hused, hdecompress⟩ := hfound n rfl
    have hlinked : (zg₁.neighbor.baseNeighbor n).addrRef = ref := by
      have hpresent : zg₁.neighbor.addrToNeighbor ref ≠ noNeighbor := by
        rw [hneighbor, hrow]
        exact hn
      have hown := (htables₁.rows.linked ref hpresent).2.2
      rw [hneighbor, hrow, ← hneighbor] at hown
      exact hown
    dsimp only at hrest
    split at hrest
    · rename_i hsame
      obtain ⟨rfl, rfl⟩ := some_pair_inj hrest
      refine ⟨htables₁, fun other s cap ref _ => hothers other s cap ref, ?_⟩
      intro m hm
      obtain rfl := some.inj hm
      rw [hlinked]
      have hto : zg₁.neighbor.addrToNeighbor ref = n := by
        rw [hneighbor]
        exact hrow
      refine ⟨⟨⟨c, ?_, hused, hdecompress⟩, ?_, ?_⟩, hto⟩
      · rw [hentry, (translation_eq_some.mp hentry).2.2]
      · rw [hto]
        exact hn
      · rw [hto]
        exact hsame
    · obtain ⟨rfl, rfl⟩ := some_pair_inj hrest
      refine ⟨htables₁.delete _, ?_, fun _ hn => by contradiction⟩
      intro other s' cap ref' hother hreg
      have hreg₁ := hothers other s' cap ref' hreg
      rw [hlinked]
      exact hreg₁.deleteOther (hreg₁.ref_ne hentry hdecompress hother)

theorem sameTranslation_zbAddressUnlock
    {g g' : AddrGlobals} (hunlock : zbAddressUnlock g ref = some g') :
    SameTranslation g g' ∧ ∀ other, other ≠ ref → g'.addrMap other = g.addrMap other := by
  unfold zbAddressUnlock at hunlock
  dsimp only at hunlock
  split at hunlock
  · contradiction
  · obtain rfl := some.inj hunlock
    have hothers : ∀ other, other ≠ ref →
        (g.setEntry ref { g.addrMap ref with
          lockCnt := (g.addrMap ref).lockCnt - 1 }).addrMap other = g.addrMap other :=
      fun other hother => update_of_ne hother ..
    refine ⟨⟨fun other => ?_, rfl, rfl, rfl, rfl, rfl⟩, hothers⟩
    by_cases hother : other = ref
    · subst hother
      simp only [AddrGlobals.setEntry, update_self]
      exact ⟨rfl, rfl, rfl⟩
    · rw [hothers other hother]
      exact ⟨rfl, rfl, rfl⟩

section

variable (htables : RejoinTables zg)

include htables

theorem Registered.update {addr : AddrGlobals} {a : IeeeAddr} {s' found : ℕ} {lock : Bool}
    (hcall : zbAddressUpdate zg.addr a s' lock = some (addr, .ok found))
    (hreg : Registered zg device s capability ref) (hdevice : device ≠ a)
    (hfound : ref ≠ found) :
    Registered { zg with addr := addr } device s capability ref := by
  obtain ⟨g₁, c, heffect⟩ := zbAddressUpdate_effect hcall
  obtain ⟨g₁', c', removed, hcompress, hupdated⟩ :=
    zbAddressUpdate_updated htables.index hcall
  obtain ⟨rfl, rfl⟩ := some_pair_inj (heffect.compressed.symm.trans hcompress)
  refine hreg.congr heffect.keeps ?_ rfl (fun _ _ hsame => hsame)
  intro hhit
  rw [← shortSearch_compressed hcompress] at hhit
  rcases hupdated.merge.eq_or_removed hhit with heq | hremoved
  · exact hfound heq
  · have hmerge := hupdated.merge
    rw [hremoved] at hmerge
    rcases hmerge.removed_cases with ⟨-, -, hfree⟩ | ⟨-, hlong, -⟩
    · exact keepsLocks_zbIeeeAddrCompress hcompress ref (htables.locked ref hreg.row) hfree
    · -- the entry which is found by the long address is that of the device
      obtain ⟨c', hentry, hused, hdecompress⟩ := hreg.entry
      have hieee := (ieeeSearch_eq_some hlong).2.2
      rw [(sameEntries_zbIeeeAddrCompress hcompress).1,
        (translation_eq_some.mp hentry).2.1] at hieee
      have hin := compressedIn_of_zbIeeeAddrCompress hcompress
      obtain ⟨-, hslot⟩ := (keepsEntries_zbIeeeAddrCompress hcompress
        fun _ => False).slots _ hused
      apply hdevice
      rw [← hdecompress, zbIeeeAddrDecompress, ← hslot, hieee, hin.slot, hin.deviceId]

theorem RejoinTables.update
    {addr : AddrGlobals} {a : IeeeAddr} {s' : ℕ} {ret : Except RetError ℕ}
    (hs : s' ≠ unknownShort)
    (hclean : (AddressCall.update a s' true).NoStaleCopy zg.addr)
    (hcall : zbAddressUpdate zg.addr a s' true = some (addr, ret)) :
    RejoinTables { zg with addr := addr } :=
  ⟨htables.index.zbAddressUpdate hs hclean hcall,
    htables.translation.zbAddressUpdate htables.index hs hcall, htables.rows,
    fun other hother => (keepsLocks_zbAddressUpdate hcall).1 other
      (htables.locked other hother)⟩

theorem RejoinTables.get {row : Except RetError ℕ} {create : Bool}
    (hget : zbNwkNeighborGet zg ref create = some (zg', row)) :
    RejoinTables zg' ∧ (∀ n, row = .ok n → zg'.neighbor.addrToNeighbor ref = n ∧
        n ≠ noNeighbor ∧ SameTranslation zg.addr zg'.addr) ∧
      ∀ err, row = .error err → zg' = zg ∧
        zg.neighbor.addrToNeighbor ref = noNeighbor := by
  have hrows := zbNwkNeighborGet_rows htables.rows hget
  rcases zbNwkNeighborGet_eq_some hget with
    ⟨rfl, ⟨hpresent, rfl⟩ | ⟨habsent, err, rfl⟩⟩ |
    ⟨habsent, -, hroom, -, rfl, locked, hlock, rfl⟩
  · refine ⟨htables, ?_, fun _ herr => by contradiction⟩
    intro n hn
    obtain rfl := Except.ok.inj hn
    exact ⟨rfl, hpresent, (SameTable.refl _).sameTranslation⟩
  · exact ⟨htables, fun _ hn => by contradiction, fun _ _ => ⟨rfl, habsent⟩⟩
  · obtain ⟨hkeeps, hlocked⟩ := keepsLocks_zbAddressLock hlock
    have hsame := sameTranslation_zbAddressLock hlock
    refine ⟨⟨htables.index.sameTranslation hsame,
      htables.translation.sameTranslation hsame, hrows, ?_⟩, ?_,
      fun _ herr => by contradiction⟩
    · intro other hother
      by_cases heq : other = ref
      · exact heq ▸ hlocked
      · refine hkeeps other (htables.locked other ?_)
        intro hnone
        apply hother
        exact (update_of_ne heq ..).trans hnone
    · intro n hn
      obtain rfl := Except.ok.inj hn
      have hsize := htables.rows.size
      have hne : zg.neighbor.baseNeighborUsed ≠ noNeighbor := by
        simp only [neighborTableSize] at hsize
        simp only [noNeighbor]
        omega
      exact ⟨update_self .., hne, hsame⟩

theorem registerChild_spec {row : Option ℕ} (hs : s ≠ unknownShort)
    (hclean : (AddressCall.update device s true).NoStaleCopy zg.addr)
    (hregister : registerChild zg device s = some (zg', row)) :
    RejoinTables zg' ∧ (row = none → ∀ other s' cap ref, other ≠ device →
        Registered zg other s' cap ref → Registered zg' other s' cap ref) ∧
      ∀ n, row = some n → ∃ ref c, zg'.neighbor.addrToNeighbor ref = n ∧
        n ≠ noNeighbor ∧ translation zg'.addr ref = some (c, s) ∧
        zg'.addr.usedManufacturer c.devManufacturer = true ∧
        zbIeeeAddrDecompress zg'.addr c = device := by
  obtain ⟨⟨addr, ret⟩, hcall, hrest⟩ := bind_eq_some_iff.mp hregister
  have htables₁ := htables.update hs hclean hcall
  obtain ⟨g₁, c, heffect⟩ := zbAddressUpdate_effect hcall
  cases ret with
  | error err =>
    obtain ⟨rfl, rfl⟩ := some_pair_inj hrest
    refine ⟨htables₁, ?_, fun _ hn => by contradiction⟩
    intro _ other s' cap ref hother hreg
    refine hreg.congr heffect.keeps ?_ rfl (fun _ _ hsame => hsame)
    -- an update which fails has found neither address
    obtain ⟨g₁', c', hcompress, hcases⟩ := zbAddressUpdate_eq_some hcall
    obtain ⟨rfl, rfl⟩ := some_pair_inj (heffect.compressed.symm.trans hcompress)
    rcases hcases with ⟨_, _, _, _, _, hok, _⟩ | ⟨hshort, hlong, _⟩
    · contradiction
    · rw [← shortSearch_compressed hcompress, hshort, hlong]
      rintro (hfound | hfound)
      · contradiction
      · contradiction
  | ok ref =>
    obtain ⟨⟨zg₂, row₂⟩, hget, hlast⟩ := bind_eq_some_iff.mp hrest
    obtain ⟨htables₂, hok, herror⟩ := htables₁.get hget
    cases row₂ with
    | ok n =>
      obtain ⟨rfl, rfl⟩ := some_pair_inj hlast
      refine ⟨htables₂, fun hnone => by contradiction, ?_⟩
      intro m hm
      obtain rfl := some.inj hm
      obtain ⟨hrow, hn, hsame⟩ := hok n rfl
      have hentry := heffect.result ref rfl ?_
      · refine ⟨ref, c, hrow, hn, ?_, ?_, ?_⟩
        · rw [hsame.translation_eq]
          exact hentry
        · rw [hsame.usedManufacturer]
          exact heffect.slot
        · rw [zbIeeeAddrDecompress, hsame.devManufacturer]
          exact heffect.reads
      · intro found hfound
        exact (htables.index.shortSearch_eq_some hfound).1.2.1
    | error err =>
      obtain ⟨rfl, habsent⟩ := herror err rfl
      obtain ⟨addr', hunlock, heq⟩ := bind_eq_some_iff.mp hlast
      obtain ⟨rfl, rfl⟩ := some_pair_inj heq
      obtain ⟨hsame, hothers⟩ := sameTranslation_zbAddressUnlock hunlock
      refine ⟨htables₁.sameTranslation hsame ?_, ?_, fun _ hn => by contradiction⟩
      · intro other hrow
        rw [hothers other (fun heq => hrow (heq ▸ habsent))]
        exact htables₁.locked other hrow
      · intro _ other s' cap ref' hother hreg
        have hne : ref' ≠ ref := fun heq => hreg.row (heq ▸ habsent)
        exact (hreg.update htables hcall hother hne).congr
          (hsame.keepsEntries fun _ => False) not_false rfl
          (fun _ _ h => h)

end

end Tables

namespace RejoinRouter

variable {router router' : RejoinRouter} {device : IeeeAddr} {s : ℕ}
  {capability : RejoinCapability}

/-- No address which a request brings into the table is the unknown one, or
deletes a stale copy from the sorted index. -/
def AddressesClean (router : RejoinRouter) (device : IeeeAddr)
    (capability : RejoinCapability) : Prop :=
  ∀ result ∈ knownChild router.zg device capability, (∀ n ∈ result.2,
      (result.1.addr.addrMap
        (result.1.neighbor.baseNeighbor n).addrRef).addr ≠ unknownShort) ∧
    (result.2 = none → ∀ address ∈ (router.nib.admitChild capability.toMacCapability).2,
        address ≠ unknownShort ∧
          (AddressCall.update device address true).NoStaleCopy result.1.addr)

instance (router : RejoinRouter) (device : IeeeAddr) (capability : RejoinCapability) :
    Decidable (router.AddressesClean device capability) :=
  inferInstanceAs (Decidable (∀ result ∈ knownChild router.zg device capability,
    _ ∧ _))

theorem setChildRow_spec
    (router : RejoinRouter) {n ref : ℕ} (htables : RejoinTables router.zg)
    (hrow : router.zg.neighbor.addrToNeighbor ref = n) (hn : n ≠ noNeighbor)
    (hentry : ∃ c, translation router.zg.addr ref = some (c, s) ∧
      router.zg.addr.usedManufacturer c.devManufacturer = true ∧
      zbIeeeAddrDecompress router.zg.addr c = device) (lqi : UInt8) :
    RejoinTables (router.setChildRow n capability lqi).zg ∧
      Registered (router.setChildRow n capability lqi).zg device s capability
        ref := by
  have hpresent : router.zg.neighbor.addrToNeighbor ref ≠ noNeighbor := by
    rw [hrow]
    exact hn
  obtain ⟨-, hused, hown⟩ := htables.rows.linked ref hpresent
  have hrows := htables.rows.rewriteRow hpresent
    (show (router.childRow (router.zg.neighbor.baseNeighbor
      (router.zg.neighbor.addrToNeighbor ref)) capability lqi).used = true from hused) hown
  rw [hrow] at hrows
  refine ⟨⟨htables.index, htables.translation, hrows, htables.locked⟩, hentry,
    hpresent, ?_⟩
  have hself : (router.setChildRow n capability lqi).zg.neighbor.baseNeighbor n =
        router.childRow (router.zg.neighbor.baseNeighbor n) capability lqi :=
    update_self ..
  change capability.SameAs ((router.setChildRow n capability
    lqi).zg.neighbor.baseNeighbor (router.zg.neighbor.addrToNeighbor ref))
  rw [hrow, hself]
  refine ⟨?_, rfl⟩
  unfold childRow
  dsimp only
  cases capability.isRouter
  · exact iff_of_false DeviceType.noConfusion Bool.noConfusion
  · exact iff_of_true rfl rfl

theorem acceptChild_spec
    {lqi : UInt8} {address : Option ℕ} (htables : RejoinTables router.zg)
    (hclean : router.AddressesClean device capability)
    (haccept : router.acceptChild device capability lqi = some (router', address)) :
    RejoinTables router'.zg ∧ router'.rejoinReqTable = router.rejoinReqTable ∧
      router'.rejoinReqTableCnt = router.rejoinReqTableCnt ∧
      (∀ s, address = some s → s ≠ unknownShort ∧
        ∃ ref, Registered router'.zg device s capability ref) ∧
      (address = none → ∀ other s cap ref, other ≠ device →
        Registered router.zg other s cap ref →
          Registered router'.zg other s cap ref) := by
  obtain ⟨⟨zg, known⟩, hknown, hrest⟩ := bind_eq_some_iff.mp haccept
  obtain ⟨htables₁, hothers, hfound⟩ := knownChild_spec htables hknown
  obtain ⟨hknownClean, hnewClean⟩ := hclean (zg, known) hknown
  cases known with
  | some n =>
    obtain ⟨rfl, rfl⟩ := some_pair_inj hrest
    obtain ⟨hreg, hrow⟩ := hfound n rfl
    obtain ⟨htables₂, hreg₂⟩ := setChildRow_spec
      { router with zg := zg, nib := _ } htables₁ hrow
      (hrow ▸ hreg.row) hreg.entry lqi
    refine ⟨htables₂, rfl, rfl, ?_, fun hnone => by contradiction⟩
    intro s hs
    obtain rfl := some.inj hs
    exact ⟨hknownClean n rfl, _, hreg₂⟩
  | none =>
    dsimp only at hrest
    split at hrest
    · rename_i address' hjoinable
      obtain ⟨hs, hstale⟩ := hnewClean rfl address' hjoinable
      obtain ⟨⟨zg₂, row⟩, hregister, hlast⟩ := bind_eq_some_iff.mp hrest
      obtain ⟨htables₂, hrefused, hregistered⟩ :=
        registerChild_spec htables₁ hs hstale hregister
      cases row with
      | some n =>
        obtain ⟨rfl, rfl⟩ := some_pair_inj hlast
        obtain ⟨ref, c, hrow, hn, hentry⟩ := hregistered n rfl
        obtain ⟨htables₃, hreg₃⟩ := setChildRow_spec
          { router with zg := zg₂, nib := _ } htables₂ hrow hn
          ⟨c, hentry⟩ lqi
        refine ⟨htables₃, rfl, rfl, ?_, fun hnone => by contradiction⟩
        intro s hs'
        obtain rfl := some.inj hs'
        exact ⟨hs, ref, hreg₃⟩
      | none =>
        obtain ⟨rfl, rfl⟩ := some_pair_inj hlast
        refine ⟨htables₂, rfl, rfl, fun _ hs => by contradiction, ?_⟩
        intro _ other s' cap ref hother hreg
        exact hrefused rfl other s' cap ref hother (hothers other s' cap ref hother hreg)
    · obtain ⟨rfl, rfl⟩ := some_pair_inj hrest
      exact ⟨htables₁, rfl, rfl, fun _ hs => by contradiction, fun _ => hothers⟩

end RejoinRouter

namespace RejoinRun

variable {run : RejoinRun}

def Safe (run : RejoinRun) : RejoinEvent → Prop
  | .request frame =>
      run.router.rejoinReqTableCnt < nwkRejoinRequestTableSize →
        ∀ device ∈ frame.sourceIeee, run.router.AddressesClean device frame.capability
  | .confirm => run.outstanding.length ≤ 1

instance (run : RejoinRun) (event : RejoinEvent) :
    Decidable (run.Safe event) :=
  match event with
  | .request frame => inferInstanceAs (Decidable (_ → ∀ device ∈ frame.sourceIeee, _))
  | .confirm => inferInstanceAs (Decidable (_ ≤ _))

structure Invariant (run : RejoinRun) : Prop where
  tables : RejoinTables run.router.zg
  count : run.router.rejoinReqTableCnt = run.outstanding.length
  single : ∀ frame response, run.outstanding = [(frame, response)] →
    run.router.rejoinReqTable 0 = response.networkAddr ∧
      response.networkAddr ≠ unknownShort ∧
      response.security = frame.security ∧
      ∃ device ref, frame.sourceIeee = some device ∧
        Registered run.router.zg device response.networkAddr frame.capability
          ref

theorem Invariant.refuse {next : RejoinRun} (hinv : run.Invariant)
    (hsame : next.outstanding = run.outstanding)
    (htables : RejoinTables next.router.zg)
    (htable : next.router.rejoinReqTable = run.router.rejoinReqTable)
    (hcnt : next.router.rejoinReqTableCnt = run.router.rejoinReqTableCnt)
    (hothers : ∀ frame response, (frame, response) ∈ run.outstanding →
      ∀ device s cap ref, frame.sourceIeee = some device →
        Registered run.router.zg device s cap ref →
          Registered next.router.zg device s cap ref) : next.Invariant := by
  refine ⟨htables, ?_, ?_⟩
  · rw [hcnt, hinv.count, hsame]
  · intro frame response hsingle
    rw [hsame] at hsingle
    obtain ⟨hzero, hs, hsecurity, device, ref, hdevice, hreg⟩ :=
      hinv.single frame response hsingle
    refine ⟨htable ▸ hzero, hs, hsecurity, device, ref, hdevice, ?_⟩
    refine hothers frame response ?_ _ _ _ _ hdevice hreg
    rw [hsingle]
    exact mem_singleton_self _

theorem Invariant.grant
    {next : RejoinRun} {frame : RejoinFrame} {response : RejoinResponse}
    {device : IeeeAddr} {ref : ℕ} (hinv : run.Invariant)
    (hsent : next.outstanding = run.outstanding ++ [(frame, response)])
    (htables : RejoinTables next.router.zg)
    (htable : next.router.rejoinReqTable =
      update run.router.rejoinReqTable run.router.rejoinReqTableCnt response.networkAddr)
    (hcnt : next.router.rejoinReqTableCnt = run.router.rejoinReqTableCnt + 1)
    (hs : response.networkAddr ≠ unknownShort)
    (hsecurity : response.security = frame.security)
    (hdevice : frame.sourceIeee = some device)
    (hreg : Registered next.router.zg device response.networkAddr
      frame.capability ref) : next.Invariant := by
  refine ⟨htables, ?_, ?_⟩
  · rw [hcnt, hinv.count, hsent, length_append, length_singleton]
  · intro frame' response' hsingle
    rw [hsent] at hsingle
    have hempty : run.outstanding = [] := by
      have hlength := congrArg length hsingle
      rw [length_append] at hlength
      exact length_eq_zero_iff.mp (Nat.succ.inj hlength)
    rw [hempty] at hsingle
    obtain ⟨rfl, rfl⟩ := Prod.mk.inj (singleton_inj.mp hsingle)
    have hzero : run.router.rejoinReqTableCnt = 0 := by
      rw [hinv.count, hempty]
      rfl
    refine ⟨?_, hs, hsecurity, device, ref, hdevice, hreg⟩
    rw [htable, hzero, update_self]

theorem Invariant.request {frame : RejoinFrame} {next : RejoinRun} (hinv : run.Invariant)
    (hsafe : run.Safe (.request frame))
    (hstep : run.step (.request frame) = some next) : next.Invariant := by
  unfold step at hstep
  split at hstep
  · rename_i henabled
    obtain ⟨⟨router, response⟩, hrequest, heq⟩ := bind_eq_some_iff.mp hstep
    obtain rfl := some.inj heq
    unfold zbNlmeRejoinRequest at hrequest
    split at hrequest
    · rename_i device hdevice
      split at hrequest
      · rename_i hroom
        obtain ⟨⟨accepted, address⟩, haccept, hrest⟩ := bind_eq_some_iff.mp hrequest
        obtain ⟨htables, htable, hcnt, hgranted, hrefused⟩ :=
          RejoinRouter.acceptChild_spec hinv.tables (hsafe hroom device hdevice) haccept
        cases address with
        | some s =>
          obtain ⟨rfl, rfl⟩ := some_pair_inj hrest
          obtain ⟨hs, ref, hreg⟩ := hgranted s rfl
          refine hinv.grant rfl htables ?_ (congrArg (· + 1) hcnt) hs rfl hdevice hreg
          change update accepted.rejoinReqTable accepted.rejoinReqTableCnt s = _
          rw [htable, hcnt]
          rfl
        | none =>
          obtain ⟨rfl, rfl⟩ := some_pair_inj hrest
          refine hinv.refuse (append_nil _) htables htable hcnt ?_
          intro frame' response' hmem other s cap ref hother hreg
          refine hrefused rfl other s cap ref ?_ hreg
          rintro rfl
          apply henabled (frame', response') hmem
          rw [hother, hdevice]
      · obtain ⟨rfl, rfl⟩ := some_pair_inj hrequest
        exact hinv.refuse (append_nil _) hinv.tables rfl rfl (fun _ _ _ _ _ _ _ _ h => h)
    · obtain ⟨rfl, rfl⟩ := some_pair_inj hrequest
      exact hinv.refuse (append_nil _) hinv.tables rfl rfl (fun _ _ _ _ _ _ _ _ h => h)
  · contradiction

theorem zbNlmeRejoinRespSent_of_found
    {router : RejoinRouter} {ref : ℕ} (hcnt : router.rejoinReqTableCnt ≠ 0)
    (hsearch : shortSearch router.zg.addr
      (router.rejoinReqTable (router.rejoinReqTableCnt - 1)) = some ref)
    (hrow : router.zg.neighbor.addrToNeighbor ref ≠ noNeighbor)
    (security : Bool) :
    ∃ router' indication,
      zbNlmeRejoinRespSent router security = some (router', indication) ∧
        router'.zg = { router.zg with addr := router.zg.addr.markClock ref } ∧
        router'.rejoinReqTableCnt = router.rejoinReqTableCnt - 1 ∧
        indication.extendedAddress = entryIeee router.zg.addr ref ∧
        indication.networkAddress = (router.zg.addr.addrMap ref).addr ∧
        indication.isRouter = decide ((router.zg.neighbor.baseNeighbor
          (router.zg.neighbor.addrToNeighbor ref)).deviceType = .router) ∧
        indication.rxOnWhenIdle = (router.zg.neighbor.baseNeighbor
          (router.zg.neighbor.addrToNeighbor ref)).rxOnWhenIdle ∧
        indication.secureRejoin = !security := by
  have hlookup : zbAddressByShort router.zg.addr
      (router.rejoinReqTable (router.rejoinReqTableCnt - 1)) false false =
        some (router.zg.addr.markClock ref, .ok ref) := by
    rw [zbAddressByShort, hsearch]
    rfl
  have hmarked := (sameTable_markClock router.zg.addr ref).entry ref
  unfold zbNlmeRejoinRespSent
  rw [if_pos hcnt, hlookup]
  simp only [bind_eq_bind, bind_some]
  rw [if_pos hrow]
  refine ⟨_, _, rfl, rfl, rfl, ?_, hmarked.addr, rfl, rfl, rfl⟩
  dsimp only
  rw [hmarked.ieeeAddr]
  rfl

theorem Invariant.respSent
    {frame : RejoinFrame} {response : RejoinResponse} (hinv : run.Invariant)
    (hsingle : run.outstanding = [(frame, response)]) :
    ∃ router indication, zbNlmeRejoinRespSent run.router response.security =
          some (router, indication) ∧
        RejoinTables router.zg ∧ router.rejoinReqTableCnt = 0 ∧
        some indication.extendedAddress = frame.sourceIeee ∧
        indication.networkAddress = response.networkAddr ∧
        indication.isRouter = frame.capability.isRouter ∧
        indication.rxOnWhenIdle = frame.capability.rxOnWhenIdle ∧
        indication.secureRejoin = !frame.security := by
  obtain ⟨hzero, hs, hsecurity, device, ref, hdevice, hreg⟩ :=
    hinv.single frame response hsingle
  obtain ⟨⟨c, hentry, hused, hdecompress⟩, hrow, htype, hidle⟩ := hreg
  have hcount : run.router.rejoinReqTableCnt = 1 := by
    rw [hinv.count, hsingle]
    rfl
  have hsearch : shortSearch run.router.zg.addr
      (run.router.rejoinReqTable (run.router.rejoinReqTableCnt - 1)) =
        some ref := by
    rw [hcount, Nat.sub_self, hzero]
    exact shortSearch_of_translation hinv.tables.index hinv.tables.translation hs hentry
  obtain ⟨router, indication, hsent, hzg, hcnt, hextended, hnetwork, hrouter,
    hrx, hrejoin⟩ := zbNlmeRejoinRespSent_of_found
      (hcount ▸ Nat.one_ne_zero) hsearch hrow response.security
  have htables := hinv.tables.sameTranslation
    (sameTable_markClock run.router.zg.addr ref).sameTranslation
    (fun other hother => keepsLocks_of_eq (fun other =>
      ((sameTable_markClock run.router.zg.addr ref).entry other).lockCnt) other
        (hinv.tables.locked other hother))
  refine ⟨router, indication, hsent, ?_, ?_, ?_, ?_, ?_, ?_, ?_⟩
  · rw [hzg]
    exact htables
  · rw [hcnt, hcount, Nat.sub_self]
  · rw [hextended, entryIeee_of_translation hentry, hdevice, ← hdecompress]
    rfl
  · rw [hnetwork, (translation_eq_some.mp hentry).2.2]
  · rw [hrouter]
    exact Bool.eq_iff_iff.mpr (decide_eq_true_iff.trans htype)
  · rw [hrx, hidle]
  · rw [hrejoin, hsecurity]

theorem Invariant.confirm (hinv : run.Invariant) (hsafe : run.Safe .confirm) :
    run.ConfirmRight .confirm ∧
      ∀ next, run.step .confirm = some next → next.Invariant := by
  have hrest : ∀ frame response rest,
      run.outstanding = (frame, response) :: rest → rest = [] := by
    intro frame response rest hfirst
    have hlength : run.outstanding.length ≤ 1 := hsafe
    rw [hfirst, length_cons] at hlength
    exact length_eq_zero_iff.mp (Nat.le_zero.mp (Nat.le_of_succ_le_succ hlength))
  constructor
  · intro frame response rest hfirst
    obtain rfl := hrest frame response rest hfirst
    obtain ⟨router, indication, hsent, -, -, hright⟩ := hinv.respSent hfirst
    exact ⟨router, indication, hsent, hright⟩
  · intro next hstep
    unfold step at hstep
    split at hstep
    · dsimp only at hstep
      split at hstep
      · rename_i frame response rest hfirst
        obtain rfl := hrest frame response rest hfirst
        obtain ⟨router, indication, hsent, htables, hcnt, -⟩ := hinv.respSent hfirst
        rw [hsent] at hstep
        obtain rfl := some.inj hstep
        exact ⟨htables, hcnt, fun _ _ hsingle => by contradiction⟩
      · contradiction
    · contradiction

/-- As long as no confirm comes while another response is outstanding, every
indication is about the device whose response was confirmed. -/
theorem confirmsRight_of_run {router : RejoinRouter} {events : List RejoinEvent}
    (htables : RejoinTables router.zg) (hcnt : router.rejoinReqTableCnt = 0)
    (hsafe : AlongRun step Safe ⟨router, []⟩ events) :
    AlongRun step ConfirmRight ⟨router, []⟩ events := by
  refine @alongRun_of_invariant _ _ _ _ _ Invariant ?_ ?_ _ _ ?_ hsafe
  · intro run event hinv hsafe
    cases event with
    | request frame => trivial
    | confirm => exact (hinv.confirm hsafe).1
  · intro run event next hinv hsafe hstep
    cases event with
    | request frame => exact hinv.request hsafe hstep
    | confirm => exact (hinv.confirm hsafe).2 next hstep
  · exact ⟨htables, hcnt, fun _ _ hsingle => by contradiction⟩

def rejoinCoordinator : RejoinRouter where
  zg := .init .zero
  nib := coordinatorNib 4 2 2
  securityLevel := 0
  rejoinReqTable _ := 0
  rejoinReqTableCnt := 0

def rejoinOf (id : UInt8) (security : Bool) : RejoinFrame where
  sourceIeee := some ⟨⟨1, 0, 0⟩, ⟨id, 2, 0, 0, 0⟩⟩
  srcAddr := 5
  security := security
  capability :=
    { isRouter := false
      allocateAddress := true
      rxOnWhenIdle := true }
  lqi := 200

theorem rejoinTables_coordinator : RejoinTables rejoinCoordinator.zg :=
  ⟨shortIndex_zeroed, translationInvariant_zeroed, rowsSound_init,
    fun _ hrow => absurd rfl hrow⟩

/-- Two devices rejoin one after the other. -/
theorem confirmsRight_oneByOne : AlongRun step ConfirmRight ⟨rejoinCoordinator, []⟩
      [.request (rejoinOf 1 true), .confirm, .request (rejoinOf 2 false), .confirm] :=
  confirmsRight_of_run rejoinTables_coordinator rfl (by decide +kernel)

/-- Two devices rejoin before the first response is confirmed: the indication
for it is about the second one. -/
theorem not_confirmsRight_overlapping :
    ¬ AlongRun step ConfirmRight ⟨rejoinCoordinator, []⟩
      ([.request (rejoinOf 1 true), .request (rejoinOf 2 false)] ++ [.confirm]) := by
  intro halong
  have hobserved : (TransitionSystem.run step ⟨rejoinCoordinator, []⟩
      [.request (rejoinOf 1 true), .request (rejoinOf 2 false)]).bind
        (fun run => run.outstanding.head?.bind fun sent =>
          (zbNlmeRejoinRespSent run.router sent.2.security).map fun result =>
            (sent.1.sourceIeee, result.2.extendedAddress)) =
      some ((rejoinOf 1 true).sourceIeee, ⟨⟨1, 0, 0⟩, ⟨2, 2, 0, 0, 0⟩⟩) := by
    decide +kernel
  obtain ⟨run, hrun, hsent⟩ := bind_eq_some_iff.mp hobserved
  obtain ⟨⟨frame, response⟩, hhead, hresult⟩ := bind_eq_some_iff.mp hsent
  obtain ⟨⟨router, indication⟩, hconfirm, heq⟩ := map_eq_some_iff.mp hresult
  simp only [Prod.mk.injEq] at heq
  obtain ⟨hsource, hextended⟩ := heq
  obtain ⟨rest, hfirst⟩ := List.head?_eq_some_iff.mp hhead
  obtain ⟨router', indication', hconfirm', hright, -⟩ :=
    halong.last hrun frame response rest hfirst
  obtain ⟨rfl, rfl⟩ := some_pair_inj (hconfirm.symm.trans hconfirm')
  rw [hextended, hsource] at hright
  exact absurd hright (by decide)

end RejoinRun

end Zboss
