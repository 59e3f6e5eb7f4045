import Zboss.NeighborLockBalance
import Zboss.NeighborRows
import Zboss.ReferencedEntries

/-!
# References from the neighbor table

A row of the neighbor table refers to an entry of the address table, which
should stand for the same device as long as the row exists.  The entry of a row
which a look-up creates is locked; the entries of rows which the end of a
discovery creates are not, and an update may delete them in a merge.
-/

namespace Zboss

open Option TransitionSystem

structure Device where
  ieee : Option IeeeAddr
  short : Option ℕ

def deviceOf (g : AddrGlobals) (ref : ℕ) : Device where
  ieee := if (g.addrMap ref).ieeeAddr ≠ .zero then some (entryIeee g ref) else none
  short :=
    if (g.addrMap ref).addr ≠ unknownShort then some (g.addrMap ref).addr
    else none

def Device.learn (device other : Device) : Device where
  ieee := device.ieee <|> other.ieee
  short := device.short <|> other.short

def Denotes (g : AddrGlobals) (ref : ℕ) (device : Device) : Prop :=
  (g.addrMap ref).used = true ∧ (device.ieee = some (entryIeee g ref) ∨
      device.short = some (g.addrMap ref).addr)

instance (g : AddrGlobals) (ref : ℕ) (device : Device) :
    Decidable (Denotes g ref device) :=
  inferInstanceAs (Decidable (_ ∧ _))

def KnownEntry (g : AddrGlobals) (ref : ℕ) : Prop :=
  (g.addrMap ref).used = true ∧
    ((g.addrMap ref).ieeeAddr ≠ .zero ∨ (g.addrMap ref).addr ≠ unknownShort)

instance (g : AddrGlobals) (ref : ℕ) : Decidable (KnownEntry g ref) :=
  inferInstanceAs (Decidable (_ ∧ _))

structure RowState where
  zg : Globals
  device : ℕ → Device

def RowState.record (state : RowState) (zg : Globals) : RowState where
  zg := zg
  device := fun ref =>
    if InNeighborTable state.zg ref then
      if Denotes zg.addr ref (state.device ref) then
        (state.device ref).learn (deviceOf zg.addr ref)
      else state.device ref
    else deviceOf zg.addr ref

/-- The calls of both tables; beacons fill the extended table, and `joined` is
set by the procedures to join and to leave. -/
inductive NeighborTableCall where
  | get (ref : ℕ) (create : Bool)
  | delete (ref : ℕ)
  | exneighborStart
  | beaconByShort (panidRef shortAddr : ℕ) (info : BeaconInfo)
  | beaconByIeee (panidRef : ℕ) (longAddr : IeeeAddr) (info : BeaconInfo)
  | setJoined (joined : Bool)
  | exneighborStop (myPanidRef : ℕ) (residue : ℕ → NeighborTblEnt)
  | byIeee (ieee : IeeeAddr) (create lock : Bool)
  | byShort (shortAddress : ℕ) (create lock : Bool)
  | update (ieee : IeeeAddr) (shortAddress : ℕ) (lock : Bool)
  | deviceLeft (shortAddress : ℕ) (ieee : IeeeAddr)

def Globals.withAddr (zg : Globals) (addr : AddrGlobals) : Globals :=
  { zg with addr := addr }

def NeighborTableCall.exec (zg : Globals) : NeighborTableCall → Option Globals
  | .get ref create => (zbNwkNeighborGet zg ref create).map Prod.fst
  | .delete ref => some (zbNwkNeighborDelete zg ref).1
  | .exneighborStart => zbNwkExneighborStart zg
  | .beaconByShort panidRef shortAddr info =>
      let (zg, ret) := zbNwkExneighborByShort zg panidRef shortAddr
      some (fillExtNeighbor zg ret panidRef info)
  | .beaconByIeee panidRef longAddr info =>
      (zbNwkExneighborByIeee zg panidRef longAddr).map fun (zg, ret) =>
        fillExtNeighbor zg ret panidRef info
  | .setJoined joined => some { zg with joined := joined }
  | .exneighborStop myPanidRef residue => zbNwkExneighborStop zg myPanidRef residue
  | .byIeee ieee create lock =>
      (zbAddressByIeee zg.addr ieee create lock).map fun found => zg.withAddr found.1
  | .byShort shortAddress create lock =>
      (zbAddressByShort zg.addr shortAddress create lock).map fun found =>
        zg.withAddr found.1
  | .update ieee shortAddress lock =>
      (zbAddressUpdate zg.addr ieee shortAddress lock).map fun found => zg.withAddr found.1
  | .deviceLeft shortAddress ieee => zbApsmeUpdateDeviceLeft zg shortAddress ieee

def RowState.stopRow (myPanidRef : ℕ) (state : RowState × ℕ)
    (ext : ExtNeighborTblEnt) : Option (RowState × ℕ) :=
  (exneighborStopRow myPanidRef (state.1.zg, state.2) ext).map fun moved =>
    (state.1.record moved.1, moved.2)

def RowState.stop (state : RowState) (myPanidRef : ℕ)
    (residue : ℕ → NeighborTblEnt) : Option RowState :=
  (if state.zg.joined then
    (run (RowState.stopRow myPanidRef) (state, 0)
      (extNeighbors state.zg.neighbor)).map Prod.fst
  else some state).map fun moved =>
    moved.record
      { moved.zg with
        neighbor := restoreBase state.zg.neighbor moved.zg.neighbor residue }

def NeighborTableCall.apply (state : RowState) : NeighborTableCall → Option RowState
  | .exneighborStop myPanidRef residue => state.stop myPanidRef residue
  | call => (call.exec state.zg).map state.record

def KeptByUpdate (state : RowState) (a : IeeeAddr) (s : ℕ)
    (short long : Option ℕ) (ref : ℕ) : Prop :=
  InNeighborTable state.zg ref → ¬ DroppedBy state.zg.addr short long ref ∧
      ((state.device ref).ieee = some a ∨ (state.device ref).short = some s)

instance (state : RowState) (a : IeeeAddr) (s : ℕ) (short long : Option ℕ)
    (ref : ℕ) : Decidable (KeptByUpdate state a s short long ref) :=
  inferInstanceAs (Decidable (_ → _))

def UpdateSafe (state : RowState) (a : IeeeAddr) (s : ℕ) : Prop :=
  match zbIeeeAddrCompress state.zg.addr a with
  | some (g₁, c) =>
      let short := shortSearch state.zg.addr s
      let long := ieeeSearch g₁ c
      (∀ ref ∈ short, KeptByUpdate state a s short long ref) ∧
        ∀ ref ∈ long, KeptByUpdate state a s short long ref
  | none => True

instance (state : RowState) (a : IeeeAddr) (s : ℕ) :
    Decidable (UpdateSafe state a s) := by
  unfold UpdateSafe
  split <;> infer_instance

def ShortFindsUsed (g : AddrGlobals) (s : ℕ) : Prop :=
  ∀ ref ∈ shortSearch g s, (g.addrMap ref).used = true

instance (g : AddrGlobals) (s : ℕ) : Decidable (ShortFindsUsed g s) :=
  inferInstanceAs (Decidable (∀ ref ∈ shortSearch g s, _))

def CompressesNonzero (g : AddrGlobals) (a : IeeeAddr) : Prop :=
  ∀ compressed ∈ zbIeeeAddrCompress g a, compressed.2 ≠ .zero

instance (g : AddrGlobals) (a : IeeeAddr) : Decidable (CompressesNonzero g a) :=
  inferInstanceAs (Decidable (∀ compressed ∈ zbIeeeAddrCompress g a, _))

def MoveSafe (myPanidRef : ℕ) (state : RowState × ℕ) (ext : ExtNeighborTblEnt) : Prop :=
  ext.panidRef = myPanidRef → if ext.shortAddr ≠ unknownShort then
      ShortFindsUsed state.1.zg.addr ext.shortAddr ∧ (ext.longAddr ≠ .zero →
          UpdateSafe state.1
            (zbIeeeAddrDecompress state.1.zg.addr ext.longAddr) ext.shortAddr)
    else
      CompressesNonzero state.1.zg.addr (zbIeeeAddrDecompress state.1.zg.addr ext.longAddr)

instance (myPanidRef : ℕ) (state : RowState × ℕ) (ext : ExtNeighborTblEnt) :
    Decidable (MoveSafe myPanidRef state ext) :=
  inferInstanceAs (Decidable (_ → _))

def NeighborTableCall.Safe (state : RowState) : NeighborTableCall → Prop
  | .get ref create =>
      create = true → ¬ InNeighborTable state.zg ref →
        state.zg.neighbor.baseNeighborUsed < state.zg.neighbor.baseNeighborSize ∧
          KnownEntry state.zg.addr ref
  | .exneighborStart => state.zg.neighbor.extNeighborSize = 0 → PackSafe state.zg.neighbor
  | .exneighborStop myPanidRef _ =>
      state.zg.joined = true →
        AlongRun (RowState.stopRow myPanidRef) (MoveSafe myPanidRef) (state, 0)
          (extNeighbors state.zg.neighbor)
  | .update ieee shortAddress _ => UpdateSafe state ieee shortAddress
  | _ => True

instance NeighborTableCall.decidableSafe (state : RowState) (call : NeighborTableCall) :
    Decidable (call.Safe state) := by
  unfold NeighborTableCall.Safe
  split <;> infer_instance

def RowState.NoDangling (state : RowState) : Prop :=
  ∀ ref, InNeighborTable state.zg ref → Denotes state.zg.addr ref (state.device ref)

/-- As `Denotes`; the long address has its manufacturer in a used slot, so that
it stays what it is. -/
def FirmlyDenotes (g : AddrGlobals) (ref : ℕ) (device : Device) : Prop :=
  ∃ c s, translation g ref = some (c, s) ∧
    ((device.ieee = some (zbIeeeAddrDecompress g c) ∧
        g.usedManufacturer c.devManufacturer = true) ∨
      device.short = some s)

section Entries

variable {g g' : AddrGlobals} {ref : ℕ} {device : Device}

section

variable (hfirm : FirmlyDenotes g ref device)

include hfirm

theorem FirmlyDenotes.denotes :
    Denotes g ref device := by
  obtain ⟨c, s, hentry, haddress⟩ := hfirm
  obtain ⟨hused, hieee, haddr⟩ := translation_eq_some.mp hentry
  refine ⟨hused, ?_⟩
  rcases haddress with ⟨hlong, _⟩ | hshort
  · exact Or.inl (by rw [hlong, entryIeee, hieee])
  · exact Or.inr (by rw [hshort, haddr])

theorem FirmlyDenotes.keeps {except : ℕ → Prop}
    (hkeeps : KeepsEntries g g' except) (hkept : ¬ except ref) :
    FirmlyDenotes g' ref device := by
  obtain ⟨c, s, hentry, haddress⟩ := hfirm
  refine ⟨c, s, hkeeps.entry ref c s hentry hkept, ?_⟩
  rcases haddress with ⟨hlong, hslot⟩ | hshort
  · obtain ⟨hslot', hdev⟩ := hkeeps.slots _ hslot
    refine Or.inl ⟨?_, hslot'⟩
    rw [hlong, zbIeeeAddrDecompress, zbIeeeAddrDecompress, hdev]
  · exact Or.inr hshort

theorem FirmlyDenotes.learn (other : Device) :
    FirmlyDenotes g ref (device.learn other) := by
  obtain ⟨c, s, hentry, haddress⟩ := hfirm
  refine ⟨c, s, hentry, ?_⟩
  rcases haddress with ⟨hlong, hslot⟩ | hshort
  · refine Or.inl ⟨?_, hslot⟩
    rw [Device.learn, hlong]
    rfl
  · refine Or.inr ?_
    rw [Device.learn, hshort]
    rfl

end

theorem KnownEntry.firmlyDenotes (hknown : KnownEntry g ref) (hslots : SlotsUsed g) :
    FirmlyDenotes g ref (deviceOf g ref) := by
  obtain ⟨hused, haddress⟩ := hknown
  have hentry := translation_of_used hused
  refine ⟨_, _, hentry, ?_⟩
  rcases haddress with hlong | hshort
  · refine Or.inl ⟨?_, hslots ref _ _ hentry hlong⟩
    simp only [deviceOf, if_pos hlong, entryIeee]
  · refine Or.inr ?_
    simp only [deviceOf, if_pos hshort]

theorem knownEntry_of_translation
    {c : IeeeAddrCompressed} {s : ℕ} (hentry : translation g ref = some (c, s))
    (haddress : c ≠ .zero ∨ s ≠ unknownShort) :
    KnownEntry g ref := by
  obtain ⟨hused, rfl, rfl⟩ := translation_eq_some.mp hentry
  exact ⟨hused, haddress⟩

theorem KnownEntry.sameTranslation
    (hknown : KnownEntry g ref) (hsame : SameTranslation g g') :
    KnownEntry g' ref := by
  have hent := hsame.entry ref
  rw [KnownEntry, hent.used, hent.ieeeAddr, hent.addr]
  exact hknown

end Entries

structure RowInvariant (state : RowState) : Prop where
  rows : RowsSound state.zg.neighbor
  slots : SlotsUsed state.zg.addr
  firm : ∀ ref, InNeighborTable state.zg ref →
    FirmlyDenotes state.zg.addr ref (state.device ref)

theorem RowInvariant.noDangling
    {state : RowState} (hinvariant : RowInvariant state) : state.NoDangling :=
  fun ref hpresent => (hinvariant.firm ref hpresent).denotes

variable {zg' : Globals} {myPanidRef : ℕ}

theorem RowInvariant.record {state : RowState} (hinvariant : RowInvariant state)
    {except : ℕ → Prop} (hrows : RowsSound zg'.neighbor)
    (hkeeps : KeepsEntries state.zg.addr zg'.addr except)
    (hwritten : ∀ ref, InNeighborTable zg' ref →
      InNeighborTable state.zg ref → except ref →
      FirmlyDenotes zg'.addr ref (state.device ref))
    (hnew : ∀ ref, InNeighborTable zg' ref → ¬ InNeighborTable state.zg ref →
      KnownEntry zg'.addr ref) :
    RowInvariant (state.record zg') := by
  have hslots := hkeeps.slotsUsed hinvariant.slots
  refine ⟨hrows, hslots, ?_⟩
  intro ref hpresent
  change InNeighborTable zg' ref at hpresent
  change FirmlyDenotes zg'.addr ref (if InNeighborTable state.zg ref then
      if Denotes zg'.addr ref (state.device ref) then
        (state.device ref).learn (deviceOf zg'.addr ref)
      else state.device ref
    else deviceOf zg'.addr ref)
  by_cases hbefore : InNeighborTable state.zg ref
  · rw [if_pos hbefore]
    have hfirm : FirmlyDenotes zg'.addr ref (state.device ref) := by
      by_cases hexcept : except ref
      · exact hwritten ref hpresent hbefore hexcept
      · exact (hinvariant.firm ref hbefore).keeps hkeeps hexcept
    rw [if_pos hfirm.denotes]
    exact hfirm.learn _
  · rw [if_neg hbefore]
    exact (hnew ref hpresent hbefore).firmlyDenotes hslots

theorem RowInvariant.record_same {state : RowState} (hinvariant : RowInvariant state)
    (hrows : RowsSound zg'.neighbor)
    (hkeeps : KeepsEntries state.zg.addr zg'.addr fun _ => False)
    (hsame : ∀ ref, InNeighborTable zg' ref → InNeighborTable state.zg ref) :
    RowInvariant (state.record zg') :=
  hinvariant.record hrows hkeeps (fun _ _ _ hexcept => absurd hexcept not_false)
    (fun ref hpresent habsent => absurd (hsame ref hpresent) habsent)

theorem keepsEntries_refl (g : AddrGlobals) (except : ℕ → Prop) :
    KeepsEntries g g except :=
  (SameTable.refl g).sameTranslation.keepsEntries except

section Calls

variable {state : RowState}

variable {ret : Except RetError ℕ} {addr : AddrGlobals}

section

variable (hinvariant : RowInvariant state)

include hinvariant

theorem RowInvariant.get {zg' : Globals} {ref : ℕ} {create : Bool}
    (hsafe : (NeighborTableCall.get ref create).Safe state)
    (hget : zbNwkNeighborGet state.zg ref create = some (zg', ret)) :
    RowInvariant (state.record zg') := by
  rcases zbNwkNeighborGet_eq_some hget with ⟨rfl, _⟩ |
    ⟨habsent, hcreate, hroom, _, _, locked, hlock, rfl⟩
  · exact hinvariant.record_same hinvariant.rows (keepsEntries_refl _ _)
      (fun _ hpresent => hpresent)
  · have hlocked := sameTranslation_zbAddressLock hlock
    apply hinvariant.record (hinvariant.rows.addRow habsent hroom rfl rfl)
      (hlocked.keepsEntries fun _ => False)
    · intro other _ _ hexcept
      exact absurd hexcept not_false
    · intro other hpresent hbefore
      have hother : other = ref := by
        by_contra hne
        apply hbefore
        intro hnone
        apply hpresent
        simp only [NeighborTbl.setRow, NeighborTbl.setNeighbor, Function.update_of_ne hne]
        exact hnone
      rw [hother]
      exact (hsafe hcreate (fun hin => hin habsent)).2.sameTranslation hlocked

theorem RowInvariant.dropRow (ref : ℕ) :
    RowInvariant (state.record (zbNwkNeighborDelete state.zg ref).1) := by
  obtain ⟨haddr, hrows, hdropped, hothers⟩ := zbNwkNeighborDelete_rows hinvariant.rows ref
  apply hinvariant.record_same hrows
  · rw [haddr]
    exact keepsEntries_refl _ _
  · intro other hpresent
    by_cases heq : other = ref
    · rw [heq] at hpresent
      exact absurd hdropped hpresent
    · rw [InNeighborTable, hothers other heq] at hpresent
      exact hpresent

theorem RowInvariant.forgetDevice
    (hkeeps : KeepsEntries state.zg.addr addr fun _ => False) (ref : ℕ) :
    RowInvariant (state.record (forgetDevice { state.zg with addr := addr } ref)) := by
  obtain ⟨haddr, hrows, hdropped, hothers⟩ :=
    @zbNwkNeighborDelete_rows { state.zg with addr := addr } hinvariant.rows ref
  have hdeleted : (Zboss.forgetDevice { state.zg with addr := addr } ref).addr =
      zbAddressDelete addr ref := by
    unfold Zboss.forgetDevice
    dsimp only
    rw [haddr]
  have hsame : ∀ other, InNeighborTable
          (Zboss.forgetDevice { state.zg with addr := addr } ref) other →
        InNeighborTable state.zg other ∧ other ≠ ref := by
    intro other hpresent
    by_cases heq : other = ref
    · rw [heq] at hpresent
      exact absurd hdropped hpresent
    · refine ⟨?_, heq⟩
      intro hnone
      exact hpresent ((hothers other heq).trans hnone)
  have hforgotten : RowsSound
      (Zboss.forgetDevice { state.zg with addr := addr } ref).neighbor := hrows
  apply hinvariant.record hforgotten
  · rw [hdeleted]
    exact (hkeeps.mono fun _ hexcept => absurd hexcept not_false).trans
      (keepsEntries_zbAddressDelete addr ref)
  · intro other hpresent _ heq
    exact absurd heq (hsame other hpresent).2
  · intro other hpresent habsent
    exact absurd (hsame other hpresent).1 habsent

theorem RowInvariant.deviceLeft {zg' : Globals} {shortAddress : ℕ} {ieee : IeeeAddr}
    (hcall : zbApsmeUpdateDeviceLeft state.zg shortAddress ieee = some zg') :
    RowInvariant (state.record zg') := by
  unfold zbApsmeUpdateDeviceLeft at hcall
  obtain ⟨⟨addr, ret⟩, hshort, hrest⟩ := bind_eq_some_iff.mp hcall
  have hkeeps := (zbAddressByShort_keeps hshort fun _ => False).1
  cases ret with
  | ok ref =>
    obtain rfl := some.inj hrest
    exact hinvariant.forgetDevice hkeeps ref
  | error err =>
    obtain ⟨⟨addr', ret'⟩, hieee, hlast⟩ := bind_eq_some_iff.mp hrest
    have hkeeps' := hkeeps.trans (zbAddressByIeee_keeps hieee fun _ => False).1
    cases ret' with
    | ok ref =>
      obtain rfl := some.inj hlast
      exact hinvariant.forgetDevice hkeeps' ref
    | error err =>
      obtain rfl := some.inj hlast
      exact hinvariant.record_same hinvariant.rows hkeeps' (fun _ hpresent => hpresent)

theorem RowInvariant.firm_update {a : IeeeAddr} {s : ℕ} {g₁ : AddrGlobals}
    {c : IeeeAddrCompressed} (hsafe : UpdateSafe state a s)
    (heffect : UpdateEffect state.zg.addr a s g₁ c addr ret)
    {ref : ℕ} (hpresent : InNeighborTable state.zg ref)
    (hfound : shortSearch state.zg.addr s = some ref ∨ ieeeSearch g₁ c = some ref) :
    FirmlyDenotes addr ref (state.device ref) := by
  simp only [UpdateSafe, heffect.compressed] at hsafe
  have hkept : KeptByUpdate state a s (shortSearch state.zg.addr s)
      (ieeeSearch g₁ c) ref := by
    rcases hfound with hshort | hlong
    · exact hsafe.1 ref hshort
    · exact hsafe.2 ref hlong
  obtain ⟨hdropped, hdevice⟩ := hkept hpresent
  have hused := (hinvariant.noDangling ref hpresent).1
  refine ⟨c, s, heffect.written ref hfound hused hdropped, ?_⟩
  rcases hdevice with hlong | hshort
  · exact Or.inl ⟨by rw [hlong, heffect.reads], heffect.slot⟩
  · exact Or.inr hshort

theorem RowInvariant.update
    {a : IeeeAddr} {s : ℕ} {lock : Bool} (hsafe : UpdateSafe state a s)
    (hcall : zbAddressUpdate state.zg.addr a s lock = some (addr, ret)) :
    RowInvariant (state.record (state.zg.withAddr addr)) := by
  obtain ⟨g₁, c, heffect⟩ := zbAddressUpdate_effect hcall
  have hrows : RowsSound (state.zg.withAddr addr).neighbor := hinvariant.rows
  apply hinvariant.record hrows heffect.keeps
  · intro ref _ hpresent hfound
    exact hinvariant.firm_update hsafe heffect hpresent hfound
  · intro ref hpresent habsent
    exact absurd hpresent habsent

end

end Calls

/-! ## The end of a discovery -/

theorem RowInvariant.extNeighborRef
    {state : RowState} {freeSize myPanidRef : ℕ} {ext : ExtNeighborTblEnt}
    {addr : AddrGlobals} {ret : Except RetError ℕ}
    (hinvariant : RowInvariant state)
    (hsafe : MoveSafe myPanidRef (state, freeSize) ext)
    (hmine : ext.panidRef = myPanidRef)
    (hcall : extNeighborRef state.zg.addr ext = some (addr, ret)) :
    ∃ except, KeepsEntries state.zg.addr addr except ∧
      (∀ ref, InNeighborTable state.zg ref → except ref →
        FirmlyDenotes addr ref (state.device ref)) ∧
      ∀ ref, ret = .ok ref → KnownEntry addr ref := by
  have hsafe := hsafe hmine
  unfold Zboss.extNeighborRef at hcall
  by_cases hshort : ext.shortAddr ≠ unknownShort
  · rw [if_pos hshort] at hcall hsafe
    obtain ⟨hused, hupdate⟩ := hsafe
    by_cases hlong : ext.longAddr ≠ .zero
    · rw [if_pos hlong] at hcall
      obtain ⟨g₁, c, heffect⟩ := zbAddressUpdate_effect hcall
      refine ⟨_, heffect.keeps, ?_, ?_⟩
      · intro ref hpresent hfound
        exact hinvariant.firm_update (hupdate hlong) heffect hpresent hfound
      · intro ref hok
        exact knownEntry_of_translation (heffect.result ref hok hused) (Or.inr hshort)
    · rw [if_neg hlong] at hcall
      obtain ⟨hkeeps, hresult⟩ := zbAddressByShort_keeps hcall fun _ => False
      refine ⟨_, hkeeps, fun _ _ hexcept => absurd hexcept not_false, ?_⟩
      intro ref hok
      obtain ⟨c, hentry⟩ := hresult ref hok hused
      exact knownEntry_of_translation hentry (Or.inr hshort)
  · rw [if_neg hshort] at hcall hsafe
    obtain ⟨hkeeps, hresult⟩ := zbAddressByIeee_keeps hcall fun _ => False
    refine ⟨_, hkeeps, fun _ _ hexcept => absurd hexcept not_false, ?_⟩
    intro ref hok
    obtain ⟨g₁, c, s, hcompress, hentry⟩ := hresult ref hok
    exact knownEntry_of_translation hentry (Or.inl (hsafe _ hcompress))

theorem RowInvariant.stopRow {state next : RowState × ℕ} {ext : ExtNeighborTblEnt}
    (hinvariant : RowInvariant state.1)
    (hsafe : MoveSafe myPanidRef state ext)
    (hstep : RowState.stopRow myPanidRef state ext = some next) :
    RowInvariant next.1 := by
  obtain ⟨⟨zg', freeSize'⟩, hrow, rfl⟩ := map_eq_some_iff.mp hstep
  obtain ⟨zg₁, hmove, hgive⟩ := bind_eq_some_iff.mp hrow
  change RowInvariant (state.1.record zg')
  unfold moveExtNeighbor at hmove
  by_cases hmine : ext.panidRef = myPanidRef
  · rw [if_pos hmine] at hmove
    obtain ⟨⟨addr, ret⟩, hcall, hrest⟩ := bind_eq_some_iff.mp hmove
    obtain ⟨except, hkeeps, hwritten, hknown⟩ :=
      hinvariant.extNeighborRef hsafe hmine hcall
    cases ret with
    | error err =>
      obtain rfl := some.inj hrest
      obtain ⟨haddr, hrows, hrefs⟩ := giveToBase_rows hgive hinvariant.rows
      have hkeeps' : KeepsEntries state.1.zg.addr zg'.addr except := by
        rw [haddr]
        exact hkeeps
      apply hinvariant.record hrows hkeeps'
      · intro ref _ hpresent hexcept
        rw [haddr]
        exact hwritten ref hpresent hexcept
      · intro ref hpresent habsent
        rw [InNeighborTable, hrefs] at hpresent
        exact absurd hpresent habsent
    | ok addrRef =>
      obtain ⟨nt, hbase, hlast⟩ := bind_eq_some_iff.mp hrest
      obtain rfl := some.inj hlast
      obtain ⟨hrows₁, hothers⟩ := hinvariant.rows.moveToBase hbase
      obtain ⟨haddr, hrows, hrefs⟩ := giveToBase_rows hgive hrows₁
      have hkeeps' : KeepsEntries state.1.zg.addr zg'.addr except := by
        rw [haddr]
        exact hkeeps
      apply hinvariant.record hrows hkeeps'
      · intro ref _ hpresent hexcept
        rw [haddr]
        exact hwritten ref hpresent hexcept
      · intro ref hpresent habsent
        have href : ref = addrRef := by
          by_contra hne
          apply habsent
          rw [InNeighborTable, hrefs] at hpresent
          rw [InNeighborTable, ← hothers ref hne]
          exact hpresent
        rw [haddr, href]
        exact hknown addrRef rfl
  · rw [if_neg hmine] at hmove
    obtain rfl := some.inj hmove
    obtain ⟨haddr, hrows, hrefs⟩ := giveToBase_rows hgive hinvariant.rows
    apply hinvariant.record_same hrows
    · rw [haddr]
      exact keepsEntries_refl _ _
    · intro ref hpresent
      rw [InNeighborTable, hrefs] at hpresent
      exact hpresent

theorem RowInvariant.stop {state next : RowState} {residue : ℕ → NeighborTblEnt}
    (hinvariant : RowInvariant state)
    (hsafe : (NeighborTableCall.exneighborStop myPanidRef residue).Safe state)
    (hstep : state.stop myPanidRef residue = some next) :
    RowInvariant next := by
  obtain ⟨moved, hmoved, rfl⟩ := map_eq_some_iff.mp hstep
  have hinvariant' : RowInvariant moved := by
    split at hmoved
    · rename_i hjoined
      obtain ⟨⟨_, freeSize⟩, hrun, rfl⟩ := map_eq_some_iff.mp hmoved
      exact invariant_of_run (fun state ext next hinvariant hsafe hstep =>
          RowInvariant.stopRow hinvariant hsafe hstep)
        hinvariant (hsafe hjoined) hrun
    · obtain rfl := some.inj hmoved
      exact hinvariant
  exact hinvariant'.record_same (hinvariant'.rows.restoreBase state.zg.neighbor residue)
    (keepsEntries_refl _ _) (fun _ hpresent => hpresent)

structure SameBaseTable (nt nt' : NeighborTbl) : Prop where
  baseNeighbor : nt'.baseNeighbor = nt.baseNeighbor
  addrToNeighbor : nt'.addrToNeighbor = nt.addrToNeighbor
  baseNeighborSize : nt'.baseNeighborSize = nt.baseNeighborSize
  baseNeighborUsed : nt'.baseNeighborUsed = nt.baseNeighborUsed

theorem SameBaseTable.refl (nt : NeighborTbl) : SameBaseTable nt nt :=
  ⟨rfl, rfl, rfl, rfl⟩

theorem SameBaseTable.rowsSound {nt nt' : NeighborTbl} (hsame : SameBaseTable nt nt')
    (hsound : RowsSound nt) : RowsSound nt' := by
  obtain ⟨hrows, hrefs, hsize, hused⟩ := hsame
  refine ⟨?_, ?_, ?_, ?_⟩
  · rw [hsize]
    exact hsound.size
  · rw [hsize, hused]
    exact hsound.room
  · rw [hrows, hrefs, hused]
    exact hsound.linked
  · rw [hrows, hrefs, hused]
    exact hsound.genuine

theorem allocNewExtneiboard_base (zg : Globals) (panidRef shortAddr : ℕ) :
    (allocNewExtneiboard zg panidRef shortAddr).1.addr = zg.addr ∧
      SameBaseTable zg.neighbor
        (allocNewExtneiboard zg panidRef shortAddr).1.neighbor := by
  unfold allocNewExtneiboard
  dsimp only
  split
  · exact ⟨rfl, .refl _⟩
  · exact ⟨rfl, ⟨rfl, rfl, rfl, rfl⟩⟩

theorem fillExtNeighbor_base (zg : Globals) (ret : Except RetError ℕ)
    (panidRef : ℕ) (info : BeaconInfo) :
    (fillExtNeighbor zg ret panidRef info).addr = zg.addr ∧ SameBaseTable zg.neighbor
        (fillExtNeighbor zg ret panidRef info).neighbor := by
  cases ret with
  | ok i => exact ⟨rfl, ⟨rfl, rfl, rfl, rfl⟩⟩
  | error err => exact ⟨rfl, .refl _⟩

theorem zbNwkExneighborByShort_base (zg : Globals) (panidRef shortAddr : ℕ) :
    (zbNwkExneighborByShort zg panidRef shortAddr).1.addr = zg.addr ∧
      SameBaseTable zg.neighbor
        (zbNwkExneighborByShort zg panidRef shortAddr).1.neighbor := by
  unfold zbNwkExneighborByShort
  dsimp only
  split
  · exact ⟨rfl, .refl _⟩
  · exact allocNewExtneiboard_base zg panidRef shortAddr

theorem zbNwkExneighborByIeee_base {zg zg' : Globals} {panidRef : ℕ} {longAddr : IeeeAddr}
    {ret : Except RetError ℕ}
    (hcall : zbNwkExneighborByIeee zg panidRef longAddr = some (zg', ret)) :
    KeepsEntries zg.addr zg'.addr (fun _ => False) ∧
      SameBaseTable zg.neighbor zg'.neighbor := by
  obtain ⟨⟨addr, c⟩, hcompress, hrest⟩ := bind_eq_some_iff.mp hcall
  have hkeeps := keepsEntries_zbIeeeAddrCompress hcompress fun _ => False
  dsimp only at hrest
  split at hrest
  · simp only [some.injEq, Prod.mk.injEq] at hrest
    obtain ⟨rfl, _⟩ := hrest
    exact ⟨hkeeps, .refl _⟩
  · have halloc :=
      allocNewExtneiboard_base { zg with addr := addr } panidRef unknownShort
    split at hrest
    · rename_i zg₁ i hresult
      rw [hresult] at halloc
      obtain ⟨haddr, hbase⟩ := halloc
      obtain ⟨⟨addr', c'⟩, hcompress', hlast⟩ := bind_eq_some_iff.mp hrest
      simp only [some.injEq, Prod.mk.injEq] at hlast
      obtain ⟨rfl, _⟩ := hlast
      rw [haddr] at hcompress'
      exact ⟨hkeeps.trans (keepsEntries_zbIeeeAddrCompress hcompress' _),
        ⟨hbase.baseNeighbor, hbase.addrToNeighbor, hbase.baseNeighborSize,
          hbase.baseNeighborUsed⟩⟩
    · rename_i zg₁ err hresult
      rw [hresult] at halloc
      obtain ⟨haddr, hbase⟩ := halloc
      simp only [some.injEq, Prod.mk.injEq] at hrest
      obtain ⟨rfl, _⟩ := hrest
      exact ⟨haddr ▸ hkeeps, hbase⟩

theorem RowInvariant.sameBase {state : RowState} (hinvariant : RowInvariant state)
    (hkeeps : KeepsEntries state.zg.addr zg'.addr fun _ => False)
    (hsame : SameBaseTable state.zg.neighbor zg'.neighbor) :
    RowInvariant (state.record zg') := by
  apply hinvariant.record_same (hsame.rowsSound hinvariant.rows) hkeeps
  intro ref hpresent
  rwa [InNeighborTable, hsame.addrToNeighbor] at hpresent

theorem SameBaseTable.trans {nt nt' nt'' : NeighborTbl}
    (hfirst : SameBaseTable nt nt') (hsecond : SameBaseTable nt' nt'') :
    SameBaseTable nt nt'' :=
  ⟨hsecond.baseNeighbor.trans hfirst.baseNeighbor,
    hsecond.addrToNeighbor.trans hfirst.addrToNeighbor,
    hsecond.baseNeighborSize.trans hfirst.baseNeighborSize,
    hsecond.baseNeighborUsed.trans hfirst.baseNeighborUsed⟩

theorem RowInvariant.apply {state next : RowState} {call : NeighborTableCall}
    (hinvariant : RowInvariant state) (hsafe : call.Safe state)
    (happly : call.apply state = some next) :
    RowInvariant next := by
  cases call with
  | get ref create =>
    obtain ⟨zg', hexec, rfl⟩ := map_eq_some_iff.mp happly
    obtain ⟨⟨_, ret⟩, hget, rfl⟩ := map_eq_some_iff.mp hexec
    exact hinvariant.get hsafe hget
  | delete ref =>
    obtain rfl := some.inj happly
    exact hinvariant.dropRow ref
  | exneighborStart =>
    obtain ⟨zg', hstart, rfl⟩ := map_eq_some_iff.mp happly
    obtain ⟨haddr, hrows, hsame⟩ := zbNwkExneighborStart_rows hinvariant.rows hsafe hstart
    apply hinvariant.record_same hrows
    · rw [haddr]
      exact keepsEntries_refl _ _
    · intro ref hpresent habsent
      exact hpresent ((hsame ref).mpr habsent)
  | beaconByShort panidRef shortAddr info =>
    obtain rfl := some.inj happly
    obtain ⟨haddr, hbase⟩ := zbNwkExneighborByShort_base state.zg panidRef shortAddr
    obtain ⟨haddr', hbase'⟩ := fillExtNeighbor_base
      (zbNwkExneighborByShort state.zg panidRef shortAddr).1
      (zbNwkExneighborByShort state.zg panidRef shortAddr).2 panidRef info
    apply hinvariant.sameBase _ (hbase.trans hbase')
    rw [haddr', haddr]
    exact keepsEntries_refl _ _
  | beaconByIeee panidRef longAddr info =>
    obtain ⟨_, hexec, rfl⟩ := map_eq_some_iff.mp happly
    obtain ⟨⟨zg₁, ret⟩, hcall, rfl⟩ := map_eq_some_iff.mp hexec
    obtain ⟨hkeeps, hbase⟩ := zbNwkExneighborByIeee_base hcall
    obtain ⟨haddr', hbase'⟩ := fillExtNeighbor_base zg₁ ret panidRef info
    apply hinvariant.sameBase _ (hbase.trans hbase')
    rw [haddr']
    exact hkeeps
  | setJoined joined =>
    obtain rfl := some.inj happly
    exact hinvariant.sameBase (keepsEntries_refl _ _) (.refl _)
  | exneighborStop myPanidRef residue => exact hinvariant.stop hsafe happly
  | byIeee ieee create lock =>
    obtain ⟨_, hexec, rfl⟩ := map_eq_some_iff.mp happly
    obtain ⟨⟨addr, ret⟩, hcall, rfl⟩ := map_eq_some_iff.mp hexec
    exact hinvariant.sameBase (zbAddressByIeee_keeps hcall fun _ => False).1 (.refl _)
  | byShort shortAddress create lock =>
    obtain ⟨_, hexec, rfl⟩ := map_eq_some_iff.mp happly
    obtain ⟨⟨addr, ret⟩, hcall, rfl⟩ := map_eq_some_iff.mp hexec
    exact hinvariant.sameBase (zbAddressByShort_keeps hcall fun _ => False).1 (.refl _)
  | update ieee shortAddress lock =>
    obtain ⟨_, hexec, rfl⟩ := map_eq_some_iff.mp happly
    obtain ⟨⟨addr, ret⟩, hcall, rfl⟩ := map_eq_some_iff.mp hexec
    exact hinvariant.update hsafe hcall
  | deviceLeft shortAddress ieee =>
    obtain ⟨zg', hcall, rfl⟩ := map_eq_some_iff.mp happly
    exact hinvariant.deviceLeft hcall

def RowState.start (zg : Globals) : RowState where
  zg := zg
  device := deviceOf zg.addr

/-- In every state of a run of safe calls from start-up, the rows of the
neighbor table refer to entries of their devices. -/
theorem noDangling_of_run {zg : Globals} {calls : List NeighborTableCall} {last : RowState}
    (haddr : zg.addr = .zeroed) (hneighbor : zg.neighbor = zbNwkNeighborInit)
    (halong : AlongRun NeighborTableCall.apply
      (fun state call => call.Safe state) (RowState.start zg) calls)
    (hrun : run NeighborTableCall.apply (RowState.start zg) calls = some last) :
    last.NoDangling := by
  have hstart : RowInvariant (RowState.start zg) := by
    refine ⟨?_, ?_, ?_⟩
    · change RowsSound zg.neighbor
      rw [hneighbor]
      exact rowsSound_init
    · intro ref c s hentry
      change translation zg.addr ref = some (c, s) at hentry
      rw [haddr, translation_zeroed] at hentry
      contradiction
    · intro ref hpresent
      refine absurd ?_ hpresent
      change zg.neighbor.addrToNeighbor ref = noNeighbor
      rw [hneighbor]
      rfl
  exact (invariant_of_run
    (fun _ _ _ hinvariant hsafe hstep => hinvariant.apply hsafe hstep)
    hstart halong hrun).noDangling

def heardBeacon : List NeighborTableCall :=
  [.exneighborStart, .beaconByShort 0 5 ⟨200, 0, 1, .coordinator⟩,
    .setJoined true, .exneighborStop 0 fun _ => .zero]

/-- Its long address is learned, and later its short address changes. -/
theorem noDangling_of_run_heard :
    ∃ last, run NeighborTableCall.apply (RowState.start (Globals.init .zero))
        (heardBeacon ++ [.update ⟨⟨1, 2, 3⟩, ⟨4, 5, 6, 7, 8⟩⟩ 5 false,
            .update ⟨⟨1, 2, 3⟩, ⟨4, 5, 6, 7, 8⟩⟩ 9 false]) = some last ∧
      last.zg.neighbor.addrToNeighbor 0 = 0 ∧
      (last.zg.addr.addrMap 0).addr = 9 ∧ last.NoDangling := by
  have hresult : (run NeighborTableCall.apply (RowState.start (Globals.init .zero))
          (heardBeacon ++ [.update ⟨⟨1, 2, 3⟩, ⟨4, 5, 6, 7, 8⟩⟩ 5 false,
              .update ⟨⟨1, 2, 3⟩, ⟨4, 5, 6, 7, 8⟩⟩ 9 false])).map
          (fun last => (last.zg.neighbor.addrToNeighbor 0,
            (last.zg.addr.addrMap 0).addr)) =
        some (0, 9) := by
    decide +kernel
  obtain ⟨last, hrun, hobserved⟩ := map_eq_some_iff.mp hresult
  rw [Prod.mk.injEq] at hobserved
  have hsafe : AlongRun NeighborTableCall.apply (fun state call => call.Safe state)
      (RowState.start (Globals.init .zero))
      (heardBeacon ++ [.update ⟨⟨1, 2, 3⟩, ⟨4, 5, 6, 7, 8⟩⟩ 5 false,
          .update ⟨⟨1, 2, 3⟩, ⟨4, 5, 6, 7, 8⟩⟩ 9 false]) := by
    decide +kernel
  exact ⟨last, hrun, hobserved.1, hobserved.2, noDangling_of_run rfl rfl hsafe hrun⟩

/-- The entry of the row is not locked, so that a merge with the entry for the
long address deletes it. -/
theorem not_noDangling_of_merge :
    ∃ last, run NeighborTableCall.apply (RowState.start (Globals.init .zero))
        (heardBeacon ++ [.byIeee ⟨⟨1, 2, 3⟩, ⟨4, 5, 6, 7, 8⟩⟩ true false,
            .update ⟨⟨1, 2, 3⟩, ⟨4, 5, 6, 7, 8⟩⟩ 5 false]) = some last ∧
      last.zg.neighbor.addrToNeighbor 0 = 0 ∧
      (last.zg.addr.addrMap 0).used = false ∧ ¬ last.NoDangling := by
  have hresult : (run NeighborTableCall.apply (RowState.start (Globals.init .zero))
          (heardBeacon ++ [.byIeee ⟨⟨1, 2, 3⟩, ⟨4, 5, 6, 7, 8⟩⟩ true false,
              .update ⟨⟨1, 2, 3⟩, ⟨4, 5, 6, 7, 8⟩⟩ 5 false])).map
          (fun last => (last.zg.neighbor.addrToNeighbor 0,
            (last.zg.addr.addrMap 0).used)) =
        some (0, false) := by
    decide +kernel
  obtain ⟨last, hrun, hobserved⟩ := map_eq_some_iff.mp hresult
  rw [Prod.mk.injEq] at hobserved
  refine ⟨last, hrun, hobserved.1, hobserved.2, ?_⟩
  intro hdangling
  have hpresent : InNeighborTable last.zg 0 := by
    rw [InNeighborTable, hobserved.1]
    decide
  have hused := (hdangling 0 hpresent).1
  rw [hobserved.2] at hused
  contradiction

end Zboss
