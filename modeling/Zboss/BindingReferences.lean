import Zboss.BindingTableRefinement
import Zboss.NeighborTable
import Zboss.ReferencedEntries

/-!
# References from the binding table

The binding tables refer to entries of the address table which they do not
lock.  A reference resolves to the long address of the request which stored it
as long as no update merges or rewrites its entry, and the device does not
leave.
-/

namespace Zboss

open Function Option PackedArray TransitionSystem

/-- The state of the stack, with the long addresses for which the references in
the tables were stored: one for a source row, and one for each copy of a
pair. -/
structure BoundState where
  zg : Globals
  binding : ApsBindingTable
  srcIeee : ApsBindSrcTable → IeeeAddr
  dstIeee : ApsBindSrcTable × ApsBindDst → List IeeeAddr

def ApsBindingTable.srcRows (b : ApsBindingTable) : List ApsBindSrcTable :=
  live b.srcTable b.srcNElements

def ApsBindDst.stored (ieee : List IeeeAddr) : ApsBindDst → List (ℕ × IeeeAddr)
  | .groupAddr _ => []
  | .longAddr dstAddr _ => ieee.map fun a => (dstAddr, a)

def BoundState.storedRefs (state : BoundState) : List (ℕ × IeeeAddr) :=
  state.binding.srcRows.map (fun row => (row.srcAddr, state.srcIeee row)) ++
    state.binding.pairList.flatMap fun pair => pair.2.stored (state.dstIeee pair)

def Resolves (g : AddrGlobals) (ref : ℕ) (ieee : IeeeAddr) : Prop :=
  (g.addrMap ref).used = true ∧ entryIeee g ref = ieee

instance (g : AddrGlobals) (ref : ℕ) (ieee : IeeeAddr) :
    Decidable (Resolves g ref ieee) :=
  inferInstanceAs (Decidable (_ ∧ _))

def BoundState.RefsResolve (state : BoundState) : Prop :=
  ∀ stored ∈ state.storedRefs, Resolves state.zg.addr stored.1 stored.2

instance (state : BoundState) : Decidable state.RefsResolve :=
  inferInstanceAs (Decidable (∀ stored ∈ state.storedRefs, _))

inductive BoundCall where
  | bind (req : ApsmeBindingReq)
  | unbind (req : ApsmeBindingReq)
  | byIeee (ieee : IeeeAddr) (create lock : Bool)
  | byShort (shortAddress : ℕ) (create lock : Bool)
  | update (ieee : IeeeAddr) (shortAddress : ℕ) (lock : Bool)
  | deviceLeft (shortAddress : ℕ) (ieee : IeeeAddr)

def BoundState.recordBind (state : BoundState) (req : ApsmeBindingReq)
    (addr : AddrGlobals) (binding : ApsBindingTable) (status : BindStatus) :
    BoundState :=
  let next :=
    { state with
      zg := { state.zg with addr := addr }
      binding := binding }
  match namedPair state.zg.addr req true with
  | some pair =>
      if status = .ok then
        { next with
          srcIeee :=
            if pair.1 ∈ state.binding.srcRows then state.srcIeee
            else update state.srcIeee pair.1 req.srcAddr
          dstIeee :=
            update state.dstIeee pair (if pair ∈ state.binding.pairList then
                req.dstAddrLong :: state.dstIeee pair
              else [req.dstAddrLong]) }
      else next
  | none => next

def BoundState.withAddr (state : BoundState) (addr : AddrGlobals) :
    BoundState :=
  { state with zg := { state.zg with addr := addr } }

def BoundCall.apply (state : BoundState) : BoundCall → Option BoundState
  | .bind req =>
      (zbApsmeBindRequest state.zg.addr state.binding req).map
        fun (addr, binding, status) => state.recordBind req addr binding status
  | .unbind req =>
      (zbApsmeUnbindRequest state.zg.addr state.binding req).map
        fun (addr, binding, _) => { state.withAddr addr with binding := binding }
  | .byIeee ieee create lock =>
      (zbAddressByIeee state.zg.addr ieee create lock).map
        fun (addr, _) => state.withAddr addr
  | .byShort shortAddress create lock =>
      (zbAddressByShort state.zg.addr shortAddress create lock).map
        fun (addr, _) => state.withAddr addr
  | .update ieee shortAddress lock =>
      (zbAddressUpdate state.zg.addr ieee shortAddress lock).map
        fun (addr, _) => state.withAddr addr
  | .deviceLeft shortAddress ieee =>
      (zbApsmeUpdateDeviceLeft state.zg shortAddress ieee).map
        fun zg => { state with zg := zg }

/-- An update asserts: the two entries which it finds are both locked. -/
def MergeAsserts (g : AddrGlobals) (short long : Option ℕ) : Prop :=
  ∃ ref ∈ short, ∃ refLong ∈ long, ref ≠ refLong ∧
    (g.addrMap ref).lockCnt ≠ 0 ∧ (g.addrMap refLong).lockCnt ≠ 0

instance (g : AddrGlobals) (short long : Option ℕ) :
    Decidable (MergeAsserts g short long) :=
  inferInstanceAs (Decidable (∃ ref ∈ short, _))

def BoundState.UpdateSafe (state : BoundState) (a : IeeeAddr) (s : ℕ) :
    Prop :=
  match zbIeeeAddrCompress state.zg.addr a with
  | some (g₁, c) =>
      let short := shortSearch state.zg.addr s
      let long := ieeeSearch g₁ c
      MergeAsserts state.zg.addr short long ∨ ∀ stored ∈ state.storedRefs,
          ¬ DroppedBy state.zg.addr short long stored.1 ∧
            (short = some stored.1 → stored.2 = a)
  | none => True

instance BoundState.decidableUpdateSafe (state : BoundState) (a : IeeeAddr)
    (s : ℕ) : Decidable (state.UpdateSafe a s) := by
  unfold BoundState.UpdateSafe
  split <;> infer_instance

def leavingRef (g : AddrGlobals) (shortAddress : ℕ) (ieee : IeeeAddr) :
    Option ℕ :=
  match shortSearch g shortAddress, zbIeeeAddrCompress g ieee with
  | some ref, _ => some ref
  | none, some (g₁, c) => ieeeSearch g₁ c
  | none, none => none

def BoundCall.Safe (state : BoundState) : BoundCall → Prop
  | .unbind req => (BindingCall.unbind req).Safe ⟨state.zg.addr, state.binding⟩
  | .update ieee shortAddress _ => state.UpdateSafe ieee shortAddress
  | .deviceLeft shortAddress ieee =>
      ∀ stored ∈ state.storedRefs,
        leavingRef state.zg.addr shortAddress ieee ≠ some stored.1
  | _ => True

instance BoundCall.decidableSafe (state : BoundState) (call : BoundCall) :
    Decidable (call.Safe state) := by
  unfold BoundCall.Safe
  split <;> infer_instance

/-- As `Resolves`; the manufacturer of the address has a used slot, so that the
address stays what it is. -/
def FirmlyResolves (g : AddrGlobals) (ref : ℕ) (ieee : IeeeAddr) : Prop :=
  ∃ c s, translation g ref = some (c, s) ∧ zbIeeeAddrDecompress g c = ieee ∧
    g.usedManufacturer c.devManufacturer = true

section Entries

variable {g g' : AddrGlobals} {ref : ℕ} {ieee : IeeeAddr}

theorem FirmlyResolves.resolves (hfirm : FirmlyResolves g ref ieee) :
    Resolves g ref ieee := by
  obtain ⟨c, s, hentry, hread, _⟩ := hfirm
  obtain ⟨hused, hieee, _⟩ := translation_eq_some.mp hentry
  exact ⟨hused, by rw [entryIeee, hieee, hread]⟩

theorem FirmlyResolves.keeps {except : ℕ → Prop} (hfirm : FirmlyResolves g ref ieee)
    (hkeeps : KeepsEntries g g' except) (hkept : ¬ except ref) :
    FirmlyResolves g' ref ieee := by
  obtain ⟨c, s, hentry, hread, hslot⟩ := hfirm
  obtain ⟨hslot', hdev⟩ := hkeeps.slots _ hslot
  refine ⟨c, s, hkeeps.entry ref c s hentry hkept, ?_, hslot'⟩
  rw [← hread, zbIeeeAddrDecompress, zbIeeeAddrDecompress, hdev]

theorem zbAddressByIeee_resolves {create lock : Bool}
    (hcall : zbAddressByIeee g ieee create lock = some (g', .ok ref)) :
    FirmlyResolves g' ref ieee := by
  obtain ⟨g₁, c, hcompress, hkeeps, hresult⟩ := zbAddressByIeee_effect hcall
  obtain ⟨s, hentry⟩ := hresult ref rfl
  have hin := compressedIn_of_zbIeeeAddrCompress hcompress
  obtain ⟨hslot, hdev⟩ := (hkeeps fun _ => False).slots _ hin.used
  refine ⟨c, s, hentry, ?_, hslot⟩
  rw [zbIeeeAddrDecompress, hdev, hin.slot, hin.deviceId]

theorem bindingDst_keeps {req : ApsmeBindingReq} {ret : Except BindStatus ApsBindDst}
    (hdst : bindingDst g req = some (g', ret)) :
    (∀ except, KeepsEntries g g' except) ∧
      ∀ dstAddr dstEnd, ret = .ok (.longAddr dstAddr dstEnd) →
        FirmlyResolves g' dstAddr req.dstAddrLong := by
  unfold bindingDst at hdst
  split at hdst
  · obtain ⟨⟨g₁, found⟩, hcall, hret⟩ := map_eq_some_iff.mp hdst
    cases found with
    | ok dstAddrRef =>
      simp only [Prod.mk.injEq] at hret
      obtain ⟨rfl, rfl⟩ := hret
      refine ⟨fun except => (zbAddressByIeee_keeps hcall except).1, ?_⟩
      intro dstAddr dstEnd hok
      simp only [Except.ok.injEq, ApsBindDst.longAddr.injEq] at hok
      rw [← hok.1]
      exact zbAddressByIeee_resolves hcall
    | error err =>
      simp only [Prod.mk.injEq] at hret
      obtain ⟨rfl, rfl⟩ := hret
      refine ⟨fun except => (zbAddressByIeee_keeps hcall except).1, ?_⟩
      intro dstAddr dstEnd hok
      contradiction
  · have hkeeps : ∀ except, KeepsEntries g g except :=
      (SameTable.refl g).sameTranslation.keepsEntries
    split at hdst
    · simp only [some.injEq, Prod.mk.injEq] at hdst
      obtain ⟨rfl, rfl⟩ := hdst
      refine ⟨hkeeps, ?_⟩
      intro dstAddr dstEnd hok
      simp at hok
    · simp only [some.injEq, Prod.mk.injEq] at hdst
      obtain ⟨rfl, rfl⟩ := hdst
      refine ⟨hkeeps, ?_⟩
      intro dstAddr dstEnd hok
      contradiction

end Entries

theorem zbApsmeBindRequest_keeps
    {g g' : AddrGlobals} {b b' : ApsBindingTable} {req : ApsmeBindingReq}
    {status : BindStatus}
    (hcall : zbApsmeBindRequest g b req = some (g', b', status)) :
    (∀ except, KeepsEntries g g' except) ∧
      (status = .ok → ∀ pair, namedPair g req true = some pair →
        FirmlyResolves g' pair.1.srcAddr req.srcAddr ∧
          ∀ dstAddr dstEnd, pair.2 = .longAddr dstAddr dstEnd →
            FirmlyResolves g' dstAddr req.dstAddrLong) := by
  obtain ⟨⟨g₁, ret⟩, hsrc, hrest⟩ := bind_eq_some_iff.mp hcall
  have hkeeps₁ : ∀ except, KeepsEntries g g₁ except :=
    fun except => (zbAddressByIeee_keeps hsrc except).1
  cases ret with
  | error err =>
    simp only [some.injEq, Prod.mk.injEq] at hrest
    obtain ⟨rfl, _, rfl⟩ := hrest
    exact ⟨hkeeps₁, fun hok => by contradiction⟩
  | ok srcAddrRef =>
    dsimp only at hrest
    split at hrest
    · obtain ⟨⟨g₂, ret⟩, hdst, hlast⟩ := bind_eq_some_iff.mp hrest
      obtain ⟨hkeeps₂, hlong⟩ := bindingDst_keeps hdst
      have hkeeps : ∀ except, KeepsEntries g g₂ except :=
        fun except => (hkeeps₁ except).trans (hkeeps₂ except)
      cases ret with
      | error status =>
        simp only [some.injEq, Prod.mk.injEq] at hlast
        obtain ⟨rfl, _, rfl⟩ := hlast
        exact ⟨hkeeps, fun hok => absurd hok (bindingDst_error hdst)⟩
      | ok dst =>
        simp only [some.injEq, Prod.mk.injEq] at hlast
        obtain ⟨rfl, _, rfl⟩ := hlast
        refine ⟨hkeeps, ?_⟩
        intro _ pair hpair
        rw [namedPair_eq_some hsrc hdst, some.injEq] at hpair
        rw [← hpair]
        refine ⟨(zbAddressByIeee_resolves hsrc).keeps
          (hkeeps₂ fun _ => False) not_false, ?_⟩
        intro dstAddr dstEnd heq
        exact hlong dstAddr dstEnd (congrArg Except.ok heq)
    · simp only [some.injEq, Prod.mk.injEq] at hrest
      obtain ⟨rfl, _, rfl⟩ := hrest
      exact ⟨hkeeps₁, fun hok => by contradiction⟩

theorem zbApsmeUnbindRequest_keeps
    {g g' : AddrGlobals} {b b' : ApsBindingTable} {req : ApsmeBindingReq}
    {status : BindStatus}
    (hcall : zbApsmeUnbindRequest g b req = some (g', b', status))
    (except : ℕ → Prop) :
    KeepsEntries g g' except := by
  obtain ⟨⟨g₁, ret⟩, hsrc, hrest⟩ := bind_eq_some_iff.mp hcall
  have hkeeps₁ := (zbAddressByIeee_keeps hsrc except).1
  cases ret with
  | error err =>
    simp only [some.injEq, Prod.mk.injEq] at hrest
    obtain ⟨rfl, _⟩ := hrest
    exact hkeeps₁
  | ok srcAddrRef =>
    dsimp only at hrest
    split at hrest
    · simp only [some.injEq, Prod.mk.injEq] at hrest
      obtain ⟨rfl, _⟩ := hrest
      exact hkeeps₁
    · obtain ⟨⟨g₂, ret⟩, hdst, hlast⟩ := bind_eq_some_iff.mp hrest
      have hkeeps := hkeeps₁.trans ((bindingDst_keeps hdst).1 except)
      cases ret with
      | error status =>
        simp only [some.injEq, Prod.mk.injEq] at hlast
        obtain ⟨rfl, _⟩ := hlast
        exact hkeeps
      | ok dst =>
        obtain ⟨b₁, _, hsame⟩ := map_eq_some_iff.mp hlast
        simp only [Prod.mk.injEq] at hsame
        obtain ⟨rfl, _⟩ := hsame
        exact hkeeps

theorem zbApsmeUpdateDeviceLeft_keeps
    {zg zg' : Globals} {shortAddress : ℕ} {ieee : IeeeAddr}
    (hcall : zbApsmeUpdateDeviceLeft zg shortAddress ieee = some zg') :
    KeepsEntries zg.addr zg'.addr fun ref =>
      leavingRef zg.addr shortAddress ieee = some ref := by
  have hforget : ∀ (addr : AddrGlobals) (ref : ℕ),
      (forgetDevice { zg with addr := addr } ref).addr =
        zbAddressDelete addr ref := by
    intro addr ref
    unfold forgetDevice zbNwkNeighborDelete
    dsimp only
    split <;> rfl
  have hdelete : ∀ (addr : AddrGlobals) (ref : ℕ),
      (∀ except, KeepsEntries zg.addr addr except) →
      leavingRef zg.addr shortAddress ieee = some ref →
      KeepsEntries zg.addr (forgetDevice { zg with addr := addr } ref).addr
        fun ref => leavingRef zg.addr shortAddress ieee = some ref := by
    intro addr ref hkeeps hleaving
    rw [hforget]
    refine (hkeeps _).trans ((keepsEntries_zbAddressDelete addr ref).mono ?_)
    rintro other rfl
    exact hleaving
  obtain ⟨⟨addr, ret⟩, hshort, hrest⟩ := bind_eq_some_iff.mp hcall
  have hkeeps : ∀ except, KeepsEntries zg.addr addr except :=
    fun except => (zbAddressByShort_keeps hshort except).1
  rcases zbAddressByShort_eq_some hshort with ⟨ref, hsearch, rfl, _⟩ |
    ⟨hsearch, _, rfl, rfl⟩ | ⟨_, hcreate, _⟩
  · obtain rfl := some.inj hrest
    apply hdelete addr ref hkeeps
    rw [leavingRef, hsearch]
  · obtain ⟨⟨addr', ret'⟩, hieee, hlast⟩ := bind_eq_some_iff.mp hrest
    have hkeeps' : ∀ except, KeepsEntries zg.addr addr' except :=
      fun except => (zbAddressByIeee_keeps hieee except).1
    obtain ⟨g₁, c, hcompress, hcases⟩ := zbAddressByIeee_eq_some hieee
    rcases hcases with ⟨ref, hlong, rfl, _⟩ | ⟨_, _, _, rfl⟩ | ⟨_, hcreate, _⟩
    · obtain rfl := some.inj hlast
      apply hdelete addr' ref hkeeps'
      rw [leavingRef, hsearch, hcompress]
      exact hlong
    · obtain rfl := some.inj hlast
      exact hkeeps' _
    · contradiction
  · contradiction

/-! ## The invariant -/

structure BoundInvariant (state : BoundState) : Prop where
  wellFormed : state.binding.WellFormed
  firm : ∀ stored ∈ state.storedRefs, FirmlyResolves state.zg.addr stored.1 stored.2

theorem BoundInvariant.refsResolve
    {state : BoundState} (hinvariant : BoundInvariant state) :
    state.RefsResolve :=
  fun stored hstored => (hinvariant.firm stored hstored).resolves

theorem mem_storedRefs {state : BoundState} {stored : ℕ × IeeeAddr} :
    stored ∈ state.storedRefs ↔ (∃ row ∈ state.binding.srcRows,
        stored = (row.srcAddr, state.srcIeee row)) ∨
      ∃ pair ∈ state.binding.pairList, ∃ dstEnd a,
        pair.2 = .longAddr stored.1 dstEnd ∧ a ∈ state.dstIeee pair ∧ stored.2 = a := by
  rw [BoundState.storedRefs, List.mem_append, List.mem_map, List.mem_flatMap]
  apply or_congr
  · simp only [eq_comm]
  · apply exists_congr
    rintro ⟨src, dst⟩
    apply and_congr_right
    intro _
    cases dst with
    | groupAddr groupAddr => simp [ApsBindDst.stored]
    | longAddr dstAddr dstEnd =>
      rw [ApsBindDst.stored, List.mem_map]
      constructor
      · rintro ⟨a, ha, rfl⟩
        exact ⟨dstEnd, a, rfl, ha, rfl⟩
      · rintro ⟨_, a, heq, ha, hstored⟩
        simp only [ApsBindDst.longAddr.injEq] at heq
        exact ⟨a, ha, Prod.ext heq.1 hstored.symm⟩

theorem ApsBindingTable.WellFormed.mem_srcRows
    {b : ApsBindingTable} (hwf : b.WellFormed) {row : ApsBindSrcTable} :
    row ∈ b.srcRows ↔ ∃ dst, (row, dst) ∈ b.pairs := by
  constructor
  · intro hrow
    obtain ⟨s, hs, rfl⟩ := mem_live.mp hrow
    obtain ⟨dstRow, hdst, rfl⟩ := hwf.inhabited s hs
    exact ⟨dstRow.dst, Multiset.mem_coe.mpr
      (IndexedRows.mem_resolve.mpr ⟨dstRow, hdst, rfl, rfl⟩)⟩
  · rintro ⟨dst, hpair⟩
    obtain ⟨dstRow, hdst, hsrc, _⟩ :=
      IndexedRows.mem_resolve.mp (Multiset.mem_coe.mp hpair)
    exact mem_live.mpr ⟨_, hwf.index dstRow hdst, hsrc⟩

theorem storedRefs_subset {state : BoundState} {zg : Globals} {binding : ApsBindingTable}
    (hwf : state.binding.WellFormed) (hwf' : binding.WellFormed)
    (hpairs : ∀ pair ∈ binding.pairs, pair ∈ state.binding.pairs) :
    ∀ stored ∈ BoundState.storedRefs { state with zg := zg, binding := binding },
      stored ∈ state.storedRefs := by
  intro stored hstored
  rw [mem_storedRefs] at hstored ⊢
  rcases hstored with ⟨row, hrow, hsame⟩ | ⟨pair, hpair, hsame⟩
  · obtain ⟨dst, hdst⟩ := hwf'.mem_srcRows.mp hrow
    exact Or.inl ⟨row, hwf.mem_srcRows.mpr ⟨dst, hpairs _ hdst⟩, hsame⟩
  · exact Or.inr ⟨pair, Multiset.mem_coe.mp (hpairs _ (Multiset.mem_coe.mpr hpair)), hsame⟩

section Invariant

variable {state : BoundState}

section

variable (hinvariant : BoundInvariant state)

include hinvariant

theorem BoundInvariant.withAddr {addr : AddrGlobals}
    (hkeeps : KeepsEntries state.zg.addr addr fun _ => False) :
    BoundInvariant (state.withAddr addr) where
  wellFormed := hinvariant.wellFormed
  firm stored hstored := (hinvariant.firm stored hstored).keeps hkeeps not_false

theorem BoundInvariant.bind
    {req : ApsmeBindingReq} {addr : AddrGlobals} {binding : ApsBindingTable}
    {status : BindStatus}
    (hcall : zbApsmeBindRequest state.zg.addr state.binding req =
      some (addr, binding, status)) :
    BoundInvariant (state.recordBind req addr binding status) := by
  have hcorrect := @bind_correct ⟨state.zg.addr, state.binding⟩ hinvariant.wellFormed req
  rw [BindingCall.Correct, hcall] at hcorrect
  obtain ⟨hwf, heffect⟩ := hcorrect
  obtain ⟨hkeeps, hresolves⟩ := zbApsmeBindRequest_keeps hcall
  have hfirm : ∀ stored ∈ state.storedRefs,
      FirmlyResolves addr stored.1 stored.2 :=
    fun stored hstored =>
      (hinvariant.firm stored hstored).keeps (hkeeps fun _ => False) not_false
  by_cases hok : status = .ok
  · rw [BindEffect, if_pos hok] at heffect
    obtain ⟨pair, hpair, hpairs⟩ := heffect
    obtain ⟨hsrc, hdst⟩ := hresolves hok pair hpair
    simp only [BoundState.recordBind, hpair, if_pos hok]
    refine ⟨hwf, ?_⟩
    rintro ⟨ref, a⟩ hstored
    rcases mem_storedRefs.mp hstored with ⟨row, hrow, hsame⟩ |
      ⟨other, hother, dstEnd, a', hlong, ha, rfl⟩
    · obtain ⟨rfl, rfl⟩ := Prod.mk.inj hsame
      dsimp only
      by_cases hold : row ∈ state.binding.srcRows
      · have hieee : (if pair.1 ∈ state.binding.srcRows then state.srcIeee
              else update state.srcIeee pair.1 req.srcAddr) row =
              state.srcIeee row := by
          split
          · rfl
          · rename_i hnew
            exact update_of_ne (fun heq : row = pair.1 => hnew (heq ▸ hold)) _ _
        rw [hieee]
        exact hfirm _ (mem_storedRefs.mpr (Or.inl ⟨row, hold, rfl⟩))
      · have hrow' : row = pair.1 := by
          obtain ⟨dst, hmem⟩ := hwf.mem_srcRows.mp hrow
          rw [hpairs, Multiset.mem_cons] at hmem
          rcases hmem with heq | hmem
          · rw [← heq]
          · exact absurd (hinvariant.wellFormed.mem_srcRows.mpr ⟨dst, hmem⟩) hold
        rw [← hrow', if_neg hold, update_self, hrow']
        exact hsrc
    · dsimp only at hlong ha
      by_cases heq : other = pair
      · rw [heq] at hlong ha
        rw [update_self] at ha
        split at ha
        · rename_i hold
          rcases List.mem_cons.mp ha with rfl | ha
          · exact hdst _ _ hlong
          · exact hfirm _ (mem_storedRefs.mpr
              (Or.inr ⟨pair, hold, dstEnd, a, hlong, ha, rfl⟩))
        · rw [List.mem_singleton.mp ha]
          exact hdst _ _ hlong
      · rw [update_of_ne heq] at ha
        have hold : other ∈ state.binding.pairs := by
          have hmem := Multiset.mem_coe.mpr hother
          change other ∈ binding.pairs at hmem
          rw [hpairs, Multiset.mem_cons] at hmem
          exact hmem.resolve_left heq
        exact hfirm _ (mem_storedRefs.mpr
          (Or.inr ⟨other, hold, dstEnd, a, hlong, ha, rfl⟩))
  · rw [BindEffect, if_neg hok] at heffect
    have hsame : state.recordBind req addr binding status = state.withAddr addr := by
      unfold BoundState.recordBind
      split
      · rw [if_neg hok, heffect]
        rfl
      · rw [heffect]
        rfl
    rw [hsame]
    exact hinvariant.withAddr (hkeeps _)

theorem BoundInvariant.unbind
    {req : ApsmeBindingReq} {addr : AddrGlobals} {binding : ApsBindingTable}
    {status : BindStatus} (hsafe : (BoundCall.unbind req).Safe state)
    (hcall : zbApsmeUnbindRequest state.zg.addr state.binding req =
      some (addr, binding, status)) :
    BoundInvariant { state.withAddr addr with binding := binding } := by
  have hcorrect := (@unbind_correct_iff ⟨state.zg.addr, state.binding⟩
    hinvariant.wellFormed req).mpr hsafe
  rw [BindingCall.Correct, hcall] at hcorrect
  obtain ⟨hwf, heffect⟩ := hcorrect
  have hkeeps := zbApsmeUnbindRequest_keeps hcall fun _ => False
  have hpairs : ∀ pair ∈ binding.pairs, pair ∈ state.binding.pairs := by
    intro pair hpair
    cases hnamed : namedPair state.zg.addr req false with
    | none =>
      have hsame := heffect.unbound (by simp [hnamed])
      rw [hsame] at hpair
      exact hpair
    | some named =>
      rw [heffect.removed named hnamed] at hpair
      exact Multiset.mem_of_mem_filter hpair
  refine ⟨hwf, ?_⟩
  intro stored hstored
  have hold := storedRefs_subset hinvariant.wellFormed hwf hpairs stored hstored
  exact (hinvariant.firm stored hold).keeps hkeeps not_false

end

theorem zbAddressUpdate_mergeAsserts
    {g g₁ : AddrGlobals} {a : IeeeAddr} {c : IeeeAddrCompressed} {s : ℕ}
    (hcompress : zbIeeeAddrCompress g a = some (g₁, c))
    (hasserts : MergeAsserts g (shortSearch g s) (ieeeSearch g₁ c))
    (lock : Bool) :
    zbAddressUpdate g a s lock = none := by
  obtain ⟨ref, hshort, refLong, hlong, hne, hlocked, hlocked'⟩ := hasserts
  have hmap := (sameEntries_zbIeeeAddrCompress hcompress).1
  have htarget : updateTarget g₁ (shortSearch g₁ s) (ieeeSearch g₁ c) =
      none := by
    rw [shortSearch_compressed hcompress, mem_def.mp hshort,
      mem_def.mp hlong, updateTarget, if_pos hne, hmap,
      if_neg hlocked, if_neg hlocked']
  rw [zbAddressUpdate, hcompress, bind_eq_bind, bind_some]
  dsimp only
  rw [htarget]
  rfl

theorem FirmlyResolves.eq_of_ieeeSearch
    {g g₁ : AddrGlobals} {a ieee : IeeeAddr} {c : IeeeAddrCompressed}
    {ref : ℕ} (hfirm : FirmlyResolves g ref ieee)
    (hcompress : zbIeeeAddrCompress g a = some (g₁, c))
    (hfound : ieeeSearch g₁ c = some ref) :
    ieee = a := by
  have hin := compressedIn_of_zbIeeeAddrCompress hcompress
  obtain ⟨c', s, hentry, hread, hslot⟩ := hfirm.keeps
    (keepsEntries_zbIeeeAddrCompress hcompress fun _ => False) not_false
  obtain ⟨_, hieee, _⟩ := translation_eq_some.mp hentry
  obtain ⟨_, _, hc⟩ := ieeeSearch_eq_some hfound
  have hsame : c' = c := hieee.symm.trans hc
  rw [← hread, hsame, zbIeeeAddrDecompress, hin.slot, hin.deviceId]

theorem BoundInvariant.update {a : IeeeAddr} {s : ℕ} {lock : Bool} {addr : AddrGlobals}
    {ret : Except RetError ℕ} (hinvariant : BoundInvariant state)
    (hsafe : state.UpdateSafe a s)
    (hcall : zbAddressUpdate state.zg.addr a s lock = some (addr, ret)) :
    BoundInvariant (state.withAddr addr) := by
  obtain ⟨g₁, c, heffect⟩ := zbAddressUpdate_effect hcall
  simp only [BoundState.UpdateSafe, heffect.compressed] at hsafe
  rcases hsafe with hasserts | hsafe
  · rw [zbAddressUpdate_mergeAsserts heffect.compressed hasserts] at hcall
    contradiction
  · refine ⟨hinvariant.wellFormed, ?_⟩
    intro stored hstored
    change stored ∈ state.storedRefs at hstored
    have hfirm := hinvariant.firm stored hstored
    by_cases hfound : shortSearch state.zg.addr s = some stored.1 ∨
        ieeeSearch g₁ c = some stored.1
    · obtain ⟨hkept, hsame⟩ := hsafe stored hstored
      have hieee : stored.2 = a := by
        rcases hfound with hshort | hlong
        · exact hsame hshort
        · exact hfirm.eq_of_ieeeSearch heffect.compressed hlong
      refine ⟨c, s, ?_, ?_, heffect.slot⟩
      · exact heffect.written stored.1 hfound hfirm.resolves.1 hkept
      · rw [hieee]
        exact heffect.reads
    · exact hfirm.keeps heffect.keeps hfound

theorem BoundInvariant.apply {call : BoundCall} {next : BoundState}
    (hinvariant : BoundInvariant state) (hsafe : call.Safe state)
    (happly : call.apply state = some next) :
    BoundInvariant next := by
  cases call with
  | bind req =>
    obtain ⟨⟨addr, binding, status⟩, hcall, rfl⟩ := map_eq_some_iff.mp happly
    exact hinvariant.bind hcall
  | unbind req =>
    obtain ⟨⟨addr, binding, status⟩, hcall, rfl⟩ := map_eq_some_iff.mp happly
    exact hinvariant.unbind hsafe hcall
  | byIeee ieee create lock =>
    obtain ⟨⟨addr, ret⟩, hcall, rfl⟩ := map_eq_some_iff.mp happly
    exact hinvariant.withAddr (zbAddressByIeee_keeps hcall _).1
  | byShort shortAddress create lock =>
    obtain ⟨⟨addr, ret⟩, hcall, rfl⟩ := map_eq_some_iff.mp happly
    exact hinvariant.withAddr (zbAddressByShort_keeps hcall _).1
  | update ieee shortAddress lock =>
    obtain ⟨⟨addr, ret⟩, hcall, rfl⟩ := map_eq_some_iff.mp happly
    exact hinvariant.update hsafe hcall
  | deviceLeft shortAddress ieee =>
    obtain ⟨zg, hcall, rfl⟩ := map_eq_some_iff.mp happly
    refine ⟨hinvariant.wellFormed, ?_⟩
    intro stored hstored
    exact (hinvariant.firm stored hstored).keeps
      (zbApsmeUpdateDeviceLeft_keeps hcall) (hsafe stored hstored)

end Invariant

def BoundState.start (zg : Globals) (binding : ApsBindingTable) : BoundState where
  zg := zg
  binding := binding
  srcIeee _ := .zero
  dstIeee _ := []

/-- In every state of a run of safe calls from empty tables, the references in
the tables resolve to the addresses for which they were stored. -/
theorem refsResolve_of_run
    {zg : Globals} {binding : ApsBindingTable} {calls : List BoundCall}
    (hsrc : binding.srcNElements = 0) (hdst : binding.dstNElements = 0)
    (halong : AlongRun BoundCall.apply (fun state call => call.Safe state)
      (BoundState.start zg binding) calls) :
    EveryState BoundCall.apply BoundState.RefsResolve
      (BoundState.start zg binding) calls := by
  have hstart : BoundInvariant (BoundState.start zg binding) := by
    refine ⟨wellFormed_of_empty hsrc hdst, ?_⟩
    intro stored hstored
    rcases mem_storedRefs.mp hstored with ⟨row, hrow, _⟩ |
      ⟨pair, hpair, dstEnd, a, _, ha, _⟩
    · obtain ⟨s, hs, _⟩ := mem_live.mp hrow
      change s < binding.srcNElements at hs
      omega
    · exact absurd ha List.not_mem_nil
  exact everyState_of_invariant
    (fun _ _ _ hinvariant hsafe hstep => hinvariant.apply hsafe hstep)
    (fun _ hinvariant => hinvariant.refsResolve) hstart halong

def sampleLongBinding : ApsmeBindingReq where
  srcAddr := ⟨⟨1, 2, 3⟩, ⟨4, 5, 6, 7, 8⟩⟩
  srcEndpoint := 1
  clusterid := 6
  addrMode := apsAddrMode64EndpPresent
  dstAddrLong := ⟨⟨1, 2, 3⟩, ⟨9, 5, 6, 7, 8⟩⟩
  dstAddrShort := 0
  dstEndpoint := 2

/-- The short address of a bound device is learned, another device leaves, and
the binding is removed. -/
theorem refsResolve_of_run_announced : EveryState BoundCall.apply BoundState.RefsResolve
      (.start (.init .zero) .zeroed)
      [.bind sampleLongBinding, .update sampleLongBinding.srcAddr 5 false,
        .byShort 7 true false, .deviceLeft 7 .zero, .unbind sampleLongBinding] :=
  refsResolve_of_run rfl rfl (by decide +kernel)

/-- The device is known by its short address in a locked entry, when it
announces its long address: the merge deletes the entry which the binding
refers to. -/
theorem not_refsResolve_of_merge : ¬ EveryState BoundCall.apply BoundState.RefsResolve
      (.start (.init .zero) .zeroed)
      [.bind sampleLongBinding, .byShort 5 true true,
        .update sampleLongBinding.srcAddr 5 false] := by
  intro hevery
  have hresult : (run BoundCall.apply (.start (.init .zero) .zeroed)
        [.bind sampleLongBinding, .byShort 5 true true,
          .update sampleLongBinding.srcAddr 5 false]).map
        (fun last => decide last.RefsResolve) = some false := by
    decide +kernel
  obtain ⟨last, hrun, hobserved⟩ := map_eq_some_iff.mp hresult
  exact of_decide_eq_false hobserved (hevery.last hrun)

end Zboss
