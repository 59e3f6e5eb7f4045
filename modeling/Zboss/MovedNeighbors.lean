import Zboss.DanglingReferences
import Zboss.JoinProcedures

/-!
# The devices which the end of a discovery moves

During a discovery each device is heard by one of its addresses.  The look-ups
by which `zb_nwk_exneighbor_stop` finds the address entries then delete none,
and as long as there is room each new entry gets a row.
-/

namespace Zboss

open Function Option TransitionSystem

section Calls

variable {g g' : AddrGlobals} {ret : Except RetError ℕ}

variable {lock : Bool} {s : ℕ} {ieee : IeeeAddr}

theorem addrAdd_others {g₂ : AddrGlobals} {ret' : Except RetError ℕ}
    {compressed : Option IeeeAddrCompressed}
    (hadd : addrAdd g compressed s = some (g₂, ret'))
    (hlock : lockResult lock g₂ ret' = some (g', ret)) (ref : ℕ) :
    translation g' ref = translation g ref ∨ ret = .ok ref := by
  have hmap := (sameTranslation_lockResult hlock).translation_eq
  obtain ⟨rfl, -⟩ := lockResult_eq_some hlock
  rw [hmap]
  rcases addrAdd_eq_some hadd with ⟨-, -, rfl⟩ | ⟨i, hi, hadded⟩
  · exact Or.inl rfl
  · by_cases heq : ref = i
    · exact Or.inr (by rw [hi, heq])
    · rw [hadded.translation_eq.2, update_of_ne heq]
      exact Or.inl rfl

theorem zbAddressByShort_others {create lock : Bool}
    (hcall : zbAddressByShort g s create lock = some (g', ret)) (ref : ℕ) :
    translation g' ref = translation g ref ∨ ret = .ok ref := by
  rcases zbAddressByShort_eq_some hcall with ⟨found, -, -, hlock⟩ |
    ⟨-, -, rfl, -⟩ | ⟨-, -, g₂, ret', hadd, hlock⟩
  · have hsame := (sameTable_markClock g found).sameTranslation.trans
      (sameTranslation_lockResult hlock)
    exact Or.inl (congrFun hsame.translation_eq ref)
  · exact Or.inl rfl
  · exact addrAdd_others hadd hlock ref

theorem zbAddressByIeee_others {create lock : Bool}
    (hcall : zbAddressByIeee g ieee create lock = some (g', ret)) (ref : ℕ) :
    translation g' ref = translation g ref ∨ ret = .ok ref := by
  obtain ⟨g₁, c, hcompress, hcases⟩ := zbAddressByIeee_eq_some hcall
  have hmap₁ : translation g₁ = translation g :=
    translation_of_addrMap_eq (sameEntries_zbIeeeAddrCompress hcompress).1
  rw [← hmap₁]
  rcases hcases with ⟨found, -, -, hlock⟩ | ⟨-, -, rfl, -⟩ | ⟨-, -, g₂, ret', hadd, hlock⟩
  · have hsame := (sameTable_markClock g₁ found).sameTranslation.trans
      (sameTranslation_lockResult hlock)
    exact Or.inl (congrFun hsame.translation_eq ref)
  · exact Or.inl rfl
  · exact addrAdd_others hadd hlock ref

theorem zbAddressUpdate_others {s s' ref : ℕ} {c : IeeeAddrCompressed}
    (hindex : ShortIndex g)
    (hcall : zbAddressUpdate g ieee s lock = some (g', ret))
    (hentry : translation g' ref = some (c, s')) :
    translation g ref = some (c, s') ∨ zbIeeeAddrDecompress g' c = ieee := by
  cases ret with
  | ok found =>
    obtain ⟨g₁, c₁, removed, hcompress, hupdated⟩ := zbAddressUpdate_updated hindex hcall
    have hin := compressedIn_of_zbIeeeAddrCompress hcompress
    have hmap₁ : translation g₁ = translation g :=
      translation_of_addrMap_eq (sameEntries_zbIeeeAddrCompress hcompress).1
    rw [hupdated.map] at hentry
    by_cases heq : ref = found
    · rw [heq, update_self, some.injEq, Prod.mk.injEq] at hentry
      right
      rw [← hentry.1, zbIeeeAddrDecompress, hupdated.devManufacturer,
        hin.slot, hin.deviceId]
    · rw [update_of_ne heq, eraseRef_eq_some, hmap₁] at hentry
      exact Or.inl hentry.1
  | error err =>
    obtain ⟨g₁, c₁, hcompress, hcases⟩ := zbAddressUpdate_eq_some hcall
    have hmap₁ : translation g₁ = translation g :=
      translation_of_addrMap_eq (sameEntries_zbIeeeAddrCompress hcompress).1
    rcases hcases with ⟨_, _, _, _, _, hok, _⟩ | ⟨-, -, g₂, ret', hadd, hlock⟩
    · contradiction
    · have hmap := (sameTranslation_lockResult hlock).translation_eq
      obtain ⟨rfl, -⟩ := lockResult_eq_some hlock
      rcases addrAdd_eq_some hadd with ⟨-, -, rfl⟩ | ⟨i, hok, -⟩
      · rw [hmap, hmap₁] at hentry
        exact Or.inl hentry
      · contradiction

theorem keepsSlots_zbAddressUpdate
    (hcall : zbAddressUpdate g ieee s lock = some (g', ret)) (i : ℕ)
    (hused : g.usedManufacturer i = true) :
    g'.usedManufacturer i = true ∧ g'.devManufacturer i = g.devManufacturer i := by
  obtain ⟨g₁, c, heffect⟩ := zbAddressUpdate_effect hcall
  exact heffect.keeps.slots i hused

end Calls

variable {c : IeeeAddrCompressed} {ref s : ℕ}

theorem deviceOf_of_translation {g : AddrGlobals}
    (hentry : translation g ref = some (c, s)) :
    deviceOf g ref = ⟨if c ≠ .zero then some (zbIeeeAddrDecompress g c) else none,
        if s ≠ unknownShort then some s else none⟩ := by
  obtain ⟨-, rfl, rfl⟩ := translation_eq_some.mp hentry
  rfl

theorem deviceOf_kept {g g' : AddrGlobals} (hinv : TranslationInvariant g)
    (hslots : ∀ i, g.usedManufacturer i = true →
      g'.usedManufacturer i = true ∧ g'.devManufacturer i = g.devManufacturer i)
    (hentry : translation g ref = some (c, s))
    (hentry' : translation g' ref = some (c, s)) :
    deviceOf g' ref = deviceOf g ref := by
  rw [deviceOf_of_translation hentry, deviceOf_of_translation hentry']
  by_cases hc : c = .zero
  · rw [if_neg (not_not.mpr hc), if_neg (not_not.mpr hc)]
  · obtain ⟨-, hused⟩ := hinv.manufacturers.pointed ref c s hentry hc
    rw [zbIeeeAddrDecompress, zbIeeeAddrDecompress, (hslots _ hused).2]

def Globals.Placed (zg : Globals) (wanted : Device → Prop) : Prop :=
  ∀ ref, (zg.addr.addrMap ref).used = true → wanted (deviceOf zg.addr ref) →
      zg.neighbor.addrToNeighbor ref ≠ noNeighbor

/-! ## Moving one entry -/

def ExtNeighborTblEnt.HasOneAddress (row : ExtNeighborTblEnt) : Prop :=
  row.shortAddr ≠ unknownShort → row.longAddr = .zero

structure MoveSound (zg : Globals) : Prop where
  index : ShortIndex zg.addr
  entries : TranslationInvariant zg.addr
  rows : RowsSound zg.neighbor
  room : zg.neighbor.baseNeighborUsed < zg.neighbor.baseNeighborSize

structure MovedTo (zg zg' : Globals) : Prop where
  keeps : KeepsEntries zg.addr zg'.addr fun _ => False
  rowsKept : ∀ ref, zg.neighbor.addrToNeighbor ref ≠ noNeighbor →
    zg'.neighbor.addrToNeighbor ref ≠ noNeighbor
  placed : ∀ ref, translation zg'.addr ref = translation zg.addr ref ∨
    zg'.neighbor.addrToNeighbor ref ≠ noNeighbor
  parents : ∀ n, zg'.neighbor.IsParentRow n → zg.neighbor.IsParentRow n

theorem MovedTo.refl (zg : Globals) : MovedTo zg zg :=
  ⟨keepsEntries_refl _ _, fun _ h => h, fun _ => Or.inl rfl, fun _ h => h⟩

theorem MovedTo.trans {zg zg' zg'' : Globals}
    (hfirst : MovedTo zg zg') (hsecond : MovedTo zg' zg'') :
    MovedTo zg zg'' where
  keeps := hfirst.keeps.trans hsecond.keeps
  rowsKept ref href := hsecond.rowsKept ref (hfirst.rowsKept ref href)
  placed ref := by
    rcases hsecond.placed ref with hsame | hrow
    · rcases hfirst.placed ref with hsame' | hrow'
      · exact Or.inl (hsame.trans hsame')
      · exact Or.inr (hsecond.rowsKept ref hrow')
    · exact Or.inr hrow
  parents n hn := hfirst.parents n (hsecond.parents n hn)

theorem Globals.Placed.moved {zg zg' : Globals} {wanted : Device → Prop}
    (hplaced : zg.Placed wanted) (hinv : TranslationInvariant zg.addr)
    (hmoved : MovedTo zg zg') :
    zg'.Placed wanted := by
  intro ref hused hwanted
  rcases hmoved.placed ref with hsame | hrow
  · have hentry' := translation_of_used hused
    have hentry := hentry'
    rw [hsame] at hentry
    rw [deviceOf_kept hinv hmoved.keeps.slots hentry hentry'] at hwanted
    exact hmoved.rowsKept ref (hplaced ref (translation_eq_some.mp hentry).1 hwanted)
  · exact hrow

structure BaseMoved (nt : NeighborTbl) (ref : ℕ) (nt' : NeighborTbl) : Prop where
  rows : RowsSound nt'
  row : nt'.addrToNeighbor ref ≠ noNeighbor
  others : ∀ other, other ≠ ref → nt'.addrToNeighbor other = nt.addrToNeighbor other
  size : nt'.baseNeighborSize = nt.baseNeighborSize
  used : nt'.baseNeighborUsed ≤ nt.baseNeighborUsed + 1
  parents : ∀ n, nt'.IsParentRow n → nt.IsParentRow n

theorem moveToBase_moved {nt nt' : NeighborTbl} {row : ExtNeighborTblEnt}
    (hsound : RowsSound nt)
    (hroom : nt.baseNeighborUsed < nt.baseNeighborSize)
    (hmove : moveToBase nt ref row = some nt') :
    BaseMoved nt ref nt' := by
  obtain ⟨hrows, hothers⟩ := hsound.moveToBase hmove
  unfold moveToBase at hmove
  dsimp only at hmove
  split at hmove
  · rename_i hpresent
    split at hmove
    · rename_i hused
      obtain rfl := some.inj hmove
      refine ⟨hrows, hpresent, hothers, rfl, Nat.le_succ _, ?_⟩
      rintro n ⟨hn, hnused, hparent⟩
      dsimp only [NeighborTbl.setRow] at hn hnused hparent
      by_cases heq : n = nt.addrToNeighbor ref
      · rw [heq, update_self] at hparent
        exact ⟨hn, heq ▸ hused, heq ▸ hparent⟩
      · rw [update_of_ne heq] at hnused hparent
        exact ⟨hn, hnused, hparent⟩
    · contradiction
  · obtain rfl := some.inj hmove
    refine ⟨hrows, ?_, hothers, rfl, Nat.le_refl _, ?_⟩
    · dsimp only [NeighborTbl.setRow, NeighborTbl.setNeighbor]
      rw [update_self]
      have hsize := hsound.size
      simp only [neighborTableSize] at hsize
      simp only [noNeighbor]
      omega
    · rintro n ⟨hn, hnused, hparent⟩
      dsimp only [NeighborTbl.setRow, NeighborTbl.setNeighbor] at hn hnused hparent
      by_cases heq : n = nt.baseNeighborUsed
      · rw [heq, update_self] at hparent
        contradiction
      · rw [update_of_ne heq] at hnused hparent
        exact ⟨by omega, hnused, hparent⟩

section Step

variable {zg zg' : Globals} {row : ExtNeighborTblEnt} {m : ℕ}

theorem extNeighborRef_of_hasOneAddress (hone : row.HasOneAddress) (g : AddrGlobals) :
    extNeighborRef g row = if row.shortAddr ≠ unknownShort then
        zbAddressByShort g row.shortAddr true false
      else zbAddressByIeee g (zbIeeeAddrDecompress g row.longAddr) true false := by
  unfold extNeighborRef
  by_cases hshort : row.shortAddr ≠ unknownShort
  · rw [if_pos hshort, if_pos hshort, if_neg (not_not.mpr (hone hshort))]
  · rw [if_neg hshort, if_neg hshort]

/-- The look-up for an entry leaves the address table sound, and touches no
entry but the one which it returns. -/
structure LookedUp (g g' : AddrGlobals) (ret : Except RetError ℕ) : Prop where
  index : ShortIndex g'
  entries : TranslationInvariant g'
  keeps : KeepsEntries g g' fun _ => False
  others : ∀ ref, translation g' ref = translation g ref ∨ ret = .ok ref

theorem lookedUp_extNeighborRef {g g' : AddrGlobals} {ret : Except RetError ℕ}
    (hindex : ShortIndex g) (hinv : TranslationInvariant g)
    (hone : row.HasOneAddress)
    (hcall : extNeighborRef g row = some (g', ret)) :
    LookedUp g g' ret := by
  rw [extNeighborRef_of_hasOneAddress hone] at hcall
  split at hcall
  · exact ⟨hindex.zbAddressByShort hcall, hinv.zbAddressByShort hindex hcall,
      (zbAddressByShort_keeps hcall _).1, zbAddressByShort_others hcall⟩
  · exact ⟨hindex.zbAddressByIeee hcall, hinv.zbAddressByIeee hcall,
      (zbAddressByIeee_keeps hcall _).1, zbAddressByIeee_others hcall⟩

def rowsFor (m : ℕ) (row : ExtNeighborTblEnt) : ℕ :=
  if row.panidRef = m then 1 else 0

structure RowMoved (zg : Globals) (added : ℕ) (zg' : Globals) : Prop where
  index : ShortIndex zg'.addr
  entries : TranslationInvariant zg'.addr
  rows : RowsSound zg'.neighbor
  moved : MovedTo zg zg'
  size : zg'.neighbor.baseNeighborSize = zg.neighbor.baseNeighborSize
  used : zg'.neighbor.baseNeighborUsed ≤ zg.neighbor.baseNeighborUsed + added

theorem MoveSound.rowMoved (hsound : MoveSound zg) (hone : row.HasOneAddress)
    (hmove : moveExtNeighbor zg m row = some zg') :
    RowMoved zg (rowsFor m row) zg' := by
  unfold moveExtNeighbor at hmove
  split at hmove
  · rename_i hmine
    rw [rowsFor, if_pos hmine]
    obtain ⟨⟨addr, ret⟩, hcall, hret⟩ := bind_eq_some_iff.mp hmove
    have hlooked := lookedUp_extNeighborRef hsound.index hsound.entries hone hcall
    cases ret with
    | ok ref =>
      obtain ⟨nt, hnt, heq⟩ := bind_eq_some_iff.mp hret
      obtain rfl := some.inj heq
      have hbase := moveToBase_moved hsound.rows hsound.room hnt
      refine ⟨hlooked.index, hlooked.entries, hbase.rows, ?_, hbase.size, hbase.used⟩
      refine ⟨hlooked.keeps, ?_, ?_, hbase.parents⟩
      · intro other hother
        by_cases heq : other = ref
        · exact heq ▸ hbase.row
        · change nt.addrToNeighbor other ≠ noNeighbor
          rw [hbase.others other heq]
          exact hother
      · intro other
        rcases hlooked.others other with hsame | hfound
        · exact Or.inl hsame
        · obtain rfl := Except.ok.inj hfound
          exact Or.inr hbase.row
    | error err =>
      obtain rfl := some.inj hret
      refine ⟨hlooked.index, hlooked.entries, hsound.rows, ?_, rfl, Nat.le_succ _⟩
      refine ⟨hlooked.keeps, fun _ h => h, ?_, fun _ h => h⟩
      intro other
      rcases hlooked.others other with hsame | hfound
      · exact Or.inl hsame
      · contradiction
  · obtain rfl := some.inj hmove
    exact ⟨hsound.index, hsound.entries, hsound.rows, .refl zg, rfl, Nat.le_add_right _ _⟩

theorem giveToBase_eq_some {freeSize freeSize' : ℕ}
    (hgive : giveToBase zg freeSize = some (zg', freeSize')) :
    ∃ size, zg.neighbor.baseNeighborSize + 1 ≤ size ∧ zg' =
        { zg with neighbor := { zg.neighbor with baseNeighborSize := size } } := by
  unfold giveToBase at hgive
  dsimp only at hgive
  split at hgive
  · simp only [some.injEq, Prod.mk.injEq] at hgive
    obtain ⟨rfl, -⟩ := hgive
    refine ⟨_, ?_, rfl⟩
    have hone : 1 ≤ (freeSize + extNeighborTblEntSize) / neighborTblEntSize := by
      rw [Nat.one_le_div_iff (by decide)]
      simp only [extNeighborTblEntSize, neighborTblEntSize]
      omega
    exact Nat.add_le_add_left hone _
  · contradiction

theorem exneighborStopRow_moved {state next : Globals × ℕ}
    (hsound : MoveSound state.1) (hone : row.HasOneAddress)
    (hstep : exneighborStopRow m state row = some next) :
    MoveSound next.1 ∧ MovedTo state.1 next.1 ∧ next.1.neighbor.baseNeighborUsed ≤
        state.1.neighbor.baseNeighborUsed + rowsFor m row := by
  obtain ⟨zg, hmove, hgive⟩ := bind_eq_some_iff.mp hstep
  obtain ⟨hindex, hentries, hrows, hmoved, hsize, hused⟩ := hsound.rowMoved hone hmove
  have hrows' := (giveToBase_rows hgive hrows).2.1
  obtain ⟨last, freeSize⟩ := next
  obtain ⟨size, hgrown, rfl⟩ := giveToBase_eq_some hgive
  refine ⟨⟨hindex, hentries, hrows', ?_⟩, ?_, hused⟩
  · have hroom := hsound.room
    have hone : rowsFor m row ≤ 1 := by
      unfold rowsFor
      split
      · exact Nat.le_refl 1
      · exact Nat.zero_le 1
    change zg.neighbor.baseNeighborUsed < size
    omega
  · exact hmoved.trans
      ⟨keepsEntries_refl _ _, fun _ h => h, fun _ => Or.inl rfl, fun _ h => h⟩

theorem stopRun_moved {rows : List ExtNeighborTblEnt} {state last : Globals × ℕ}
    (hsound : MoveSound state.1) (hone : ∀ row ∈ rows, row.HasOneAddress)
    (hrun : run (exneighborStopRow m) state rows = some last) :
    MoveSound last.1 ∧ MovedTo state.1 last.1 ∧ last.1.neighbor.baseNeighborUsed ≤
        state.1.neighbor.baseNeighborUsed + (rows.map (rowsFor m)).sum := by
  induction rows generalizing state with
  | nil =>
    rw [run_nil, some.injEq] at hrun
    subst hrun
    exact ⟨hsound, .refl _, Nat.le_refl _⟩
  | cons row rest ih =>
    obtain ⟨next, hstep, hrest⟩ := run_cons_eq_some.mp hrun
    obtain ⟨hsound', hmoved, hused⟩ :=
      exneighborStopRow_moved hsound (hone row List.mem_cons_self) hstep
    obtain ⟨hlast, hmoved', hused'⟩ :=
      ih hsound' (fun row hrow => hone row (List.mem_cons_of_mem _ hrow)) hrest
    refine ⟨hlast, hmoved.trans hmoved', ?_⟩
    rw [List.map_cons, List.sum_cons]
    omega

end Step

theorem zbAddressByShort_unique {g g' : AddrGlobals} {s q : ℕ} {ret : Except RetError ℕ}
    (hindex : ShortIndex g) (hinv : TranslationInvariant g)
    (hs : s ≠ unknownShort)
    (hcall : zbAddressByShort g s true false = some (g', ret))
    (hentry : translation g' q = some (c, s)) : ret = .ok q := by
  cases ret with
  | ok ref =>
    have hused : ∀ found, shortSearch g s = some found → (g.addrMap found).used = true :=
      fun found hfound => (hindex.shortSearch_eq_some hfound).1.2.1
    obtain ⟨c', hentry'⟩ := (zbAddressByShort_keeps hcall fun _ => False).2 ref rfl hused
    have hinv' := hinv.zbAddressByShort hindex hcall
    rw [hinv'.unique.short q ref c c' s hentry hentry' hs]
  | error err =>
    have hsame := (zbAddressByShort_others hcall q).resolve_right (fun hok => nomatch hok)
    rw [hsame] at hentry
    rcases zbAddressByShort_eq_some hcall with ⟨_, -, hok, -⟩ |
      ⟨-, hcreate, -⟩ | ⟨hnone, -⟩
    · contradiction
    · contradiction
    · exact absurd hentry (hindex.shortSearch_none hinv.bound hnone hs q c)

theorem ManufacturerTable.compressed_unique {g : AddrGlobals} {c c' : IeeeAddrCompressed}
    (htable : ManufacturerTable g)
    (hlt : c.devManufacturer < devManufacturerTableSize)
    (hused : g.usedManufacturer c.devManufacturer = true)
    (hlt' : c'.devManufacturer < devManufacturerTableSize)
    (hused' : g.usedManufacturer c'.devManufacturer = true)
    (hreads : zbIeeeAddrDecompress g c = zbIeeeAddrDecompress g c') :
    c = c' := by
  obtain ⟨hdev, hid⟩ := IeeeAddr.mk.inj hreads
  exact IeeeAddrCompressed.eq_of_fields
    (htable.distinct _ _ hlt hlt' hused hused' hdev) hid

theorem zbAddressByIeee_unique
    {g g' : AddrGlobals} {a : IeeeAddr} {s q : ℕ} {create : Bool}
    {ret : Except RetError ℕ}
    (hinv : TranslationInvariant g)
    (hcall : zbAddressByIeee g a create false = some (g', ret))
    (hentry : translation g' q = some (c, s)) (hc : c ≠ .zero)
    (hreads : zbIeeeAddrDecompress g' c = a) : ret = .ok q := by
  have hinv' := hinv.zbAddressByIeee hcall
  obtain ⟨g₁, c₁, hcompress, hkeeps, hresult⟩ := zbAddressByIeee_effect hcall
  have hin := compressedIn_of_zbIeeeAddrCompress hcompress
  obtain ⟨hused₁, hdev₁⟩ := (hkeeps fun _ => False).slots _ hin.used
  obtain ⟨hlt, hused⟩ := hinv'.manufacturers.pointed q c s hentry hc
  have hreads₁ : zbIeeeAddrDecompress g' c₁ = a := by
    rw [zbIeeeAddrDecompress, hdev₁, hin.slot, hin.deviceId]
  obtain rfl := hinv'.manufacturers.compressed_unique hlt hused hin.lt hused₁
    (hreads.trans hreads₁.symm)
  cases ret with
  | ok ref =>
    obtain ⟨s', hentry'⟩ := hresult ref rfl
    rw [hinv'.unique.long q ref c s s' hentry hentry' hc]
  | error err =>
    have hsame := (zbAddressByIeee_others hcall q).resolve_right (by simp)
    obtain ⟨hinv₁, -, hmap⟩ := hinv.compressed hcompress
    rw [hsame, ← hmap] at hentry
    obtain ⟨g₂, c₂, hcompress₂, hcases⟩ := zbAddressByIeee_eq_some hcall
    rw [hcompress, some.injEq, Prod.mk.injEq] at hcompress₂
    obtain ⟨rfl, rfl⟩ := hcompress₂
    rcases hcases with ⟨_, -, hok, -⟩ | ⟨hnone, -⟩ | ⟨hnone, -⟩
    · contradiction
    · exact absurd hentry (ieeeSearch_none hinv₁.bound hnone q s)
    · exact absurd hentry (ieeeSearch_none hinv₁.bound hnone q s)

section Found

variable {row : ExtNeighborTblEnt} {m : ℕ} {wanted : Device → Prop}

/-- The look-up for the row returns the only entry of a device wanted. -/
def FindsAll (g : AddrGlobals) (row : ExtNeighborTblEnt) (wanted : Device → Prop) : Prop :=
  ∀ g' ret, extNeighborRef g row = some (g', ret) → ∀ q,
    (g'.addrMap q).used = true → wanted (deviceOf g' q) → ret = .ok q

theorem findsAll_short
    {g : AddrGlobals} (hindex : ShortIndex g) (hinv : TranslationInvariant g)
    (hone : row.HasOneAddress) (hs : row.shortAddr ≠ unknownShort) :
    FindsAll g row fun device => device.short = some row.shortAddr := by
  intro g' ret hcall q hused hshort
  rw [extNeighborRef_of_hasOneAddress hone, if_pos hs] at hcall
  have hentry := translation_of_used hused
  rw [deviceOf_of_translation hentry] at hshort
  dsimp only at hshort
  split at hshort
  · rw [some.inj hshort] at hentry
    exact zbAddressByShort_unique hindex hinv hs hcall hentry
  · contradiction

theorem findsAll_ieee {g : AddrGlobals} (hinv : TranslationInvariant g)
    (hone : row.HasOneAddress) (hs : row.shortAddr = unknownShort) :
    FindsAll g row fun device =>
      device.ieee = some (zbIeeeAddrDecompress g row.longAddr) := by
  intro g' ret hcall q hused hieee
  rw [extNeighborRef_of_hasOneAddress hone, if_neg (not_not.mpr hs)] at hcall
  have hentry := translation_of_used hused
  rw [deviceOf_of_translation hentry] at hieee
  dsimp only at hieee
  split at hieee
  · rename_i hc
    exact zbAddressByIeee_unique hinv hcall hentry hc (some.inj hieee)
  · contradiction

theorem placed_exneighborStopRow {state next : Globals × ℕ}
    (hsound : MoveSound state.1) (hmine : row.panidRef = m)
    (hfinds : FindsAll state.1.addr row wanted)
    (hstep : exneighborStopRow m state row = some next) :
    next.1.Placed wanted := by
  obtain ⟨zg, hmove, hgive⟩ := bind_eq_some_iff.mp hstep
  obtain ⟨last, freeSize⟩ := next
  obtain ⟨size, -, rfl⟩ := giveToBase_eq_some hgive
  unfold moveExtNeighbor at hmove
  rw [if_pos hmine] at hmove
  obtain ⟨⟨addr, ret⟩, hcall, hret⟩ := bind_eq_some_iff.mp hmove
  cases ret with
  | ok ref =>
    obtain ⟨nt, hnt, heq⟩ := bind_eq_some_iff.mp hret
    obtain rfl := some.inj heq
    intro q hused hwanted
    obtain rfl := Except.ok.inj (hfinds addr _ hcall q hused hwanted)
    exact (moveToBase_moved hsound.rows hsound.room hnt).row
  | error err =>
    obtain rfl := some.inj hret
    intro q hused hwanted
    exact nomatch hfinds addr _ hcall q hused hwanted

theorem placed_of_stopRun {rows : List ExtNeighborTblEnt} {state last : Globals × ℕ}
    (hsound : MoveSound state.1) (hone : ∀ row ∈ rows, row.HasOneAddress)
    (hrun : run (exneighborStopRow m) state rows = some last)
    (hmem : row ∈ rows) (hmine : row.panidRef = m)
    (hfinds : ∀ zg, MoveSound zg → MovedTo state.1 zg → FindsAll zg.addr row wanted) :
    last.1.Placed wanted := by
  induction rows generalizing state with
  | nil => contradiction
  | cons first rest ih =>
    obtain ⟨next, hstep, hrest⟩ := run_cons_eq_some.mp hrun
    have hrestOne : ∀ row ∈ rest, row.HasOneAddress :=
      fun row hrow => hone row (List.mem_cons_of_mem _ hrow)
    obtain ⟨hsound', hmoved, -⟩ :=
      exneighborStopRow_moved hsound (hone first List.mem_cons_self) hstep
    rcases List.mem_cons.mp hmem with rfl | hlater
    · have hplaced := placed_exneighborStopRow hsound hmine
        (hfinds _ hsound (.refl _)) hstep
      exact hplaced.moved hsound'.entries (stopRun_moved hsound' hrestOne hrest).2.1
    · exact ih hsound' hrestOne hrest hlater fun zg hzg hmoved' =>
        hfinds zg hzg (hmoved.trans hmoved')

end Found

structure Stopped (zg : Globals) (m : ℕ) (zg' : Globals) : Prop where
  index : ShortIndex zg'.addr
  entries : TranslationInvariant zg'.addr
  rows : RowsSound zg'.neighbor
  moved : MovedTo zg zg'
  used : zg'.neighbor.baseNeighborUsed ≤ zg.neighbor.baseNeighborUsed +
      ((extNeighbors zg.neighbor).map (rowsFor m)).sum
  found : ∀ row ∈ extNeighbors zg.neighbor, row.panidRef = m →
    ∀ wanted, (∀ zg₁, MoveSound zg₁ → MovedTo zg zg₁ →
      FindsAll zg₁.addr row wanted) → zg'.Placed wanted

theorem isParentRow_restoreBase
    {before nt : NeighborTbl} {residue : ℕ → NeighborTblEnt} {n : ℕ} :
    (restoreBase before nt residue).IsParentRow n ↔ nt.IsParentRow n := by
  unfold NeighborTbl.IsParentRow
  refine and_congr_right fun hn => ?_
  have hsame : (restoreBase before nt residue).baseNeighbor n = nt.baseNeighbor n :=
    if_pos (Or.inl hn)
  rw [hsame]

theorem stopped_zbNwkExneighborStop
    {zg zg' : Globals} {m : ℕ} {residue : ℕ → NeighborTblEnt}
    (hjoined : zg.joined = true) (hsound : MoveSound zg)
    (hone : ∀ row ∈ extNeighbors zg.neighbor, row.HasOneAddress)
    (hstop : zbNwkExneighborStop zg m residue = some zg') :
    Stopped zg m zg' := by
  unfold zbNwkExneighborStop at hstop
  rw [if_pos hjoined] at hstop
  obtain ⟨moved, hmoved, heq⟩ := bind_eq_some_iff.mp hstop
  obtain rfl := some.inj heq
  obtain ⟨last, hrun, rfl⟩ := map_eq_some_iff.mp hmoved
  obtain ⟨hlast, hmovedTo, hused⟩ := stopRun_moved hsound hone hrun
  refine ⟨hlast.index, hlast.entries, hlast.rows.restoreBase _ _, ?_, hused, ?_⟩
  · exact ⟨hmovedTo.keeps, hmovedTo.rowsKept, hmovedTo.placed,
      fun n hn => hmovedTo.parents n (isParentRow_restoreBase.mp hn)⟩
  · intro row hmem hmine wanted hfinds
    exact placed_of_stopRun hsound hone hrun hmem hmine hfinds

end Zboss
