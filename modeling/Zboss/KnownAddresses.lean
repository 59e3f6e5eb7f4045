import Zboss.AddressTableFrames

/-!
# Known long addresses

A long address is known when a slot holds its manufacturer and an entry its
compressed form.  Looking up an address makes it known, and those which are
known stay so.
-/

namespace Zboss

open Function Option

def usedSlot (g : AddrGlobals) (manufacturer : DevManufacturer) : Option ℕ :=
  (List.range devManufacturerTableSize).find? fun i =>
    g.usedManufacturer i && g.devManufacturer i == manufacturer

def ieeeRef (g : AddrGlobals) (ieee : IeeeAddr) : Option ℕ :=
  (usedSlot g ieee.deviceManufacturer).bind fun i => ieeeSearch g ⟨i, ieee.deviceId⟩

section LookUp

variable {g g' : AddrGlobals} {ieee : IeeeAddr} {c : IeeeAddrCompressed}

theorem usedSlot_of_manufacturerSlot {manufacturer : DevManufacturer} {i : ℕ}
    (hslot : manufacturerSlot g manufacturer = some i)
    (hused : g'.usedManufacturer = update g.usedManufacturer i true)
    (hdev : g'.devManufacturer = update g.devManufacturer i manufacturer) :
    usedSlot g' manufacturer = some i := by
  have hfound : (g'.usedManufacturer i &&
      g'.devManufacturer i == manufacturer) = true := by
    simp [hused, hdev]
  have hothers : ∀ j, j ≠ i →
      (g'.usedManufacturer j && g'.devManufacturer j == manufacturer) =
        (g.usedManufacturer j && g.devManufacturer j == manufacturer) := by
    intro j hj
    rw [hused, hdev, update_of_ne hj, update_of_ne hj]
  have hfirst : i < devManufacturerTableSize ∧ ∀ j < i,
      (g.usedManufacturer j && g.devManufacturer j == manufacturer) =
        false := by
    rw [manufacturerSlot] at hslot
    split at hslot
    case h_1 found hfind =>
      obtain rfl := some.inj hslot
      obtain ⟨-, hlt, hbefore⟩ := List.find?_range_eq_some.mp hfind
      exact ⟨List.mem_range.mp hlt, fun j hj => (Bool.not_eq_true' _).mp (hbefore j hj)⟩
    case h_2 hfind =>
      have hlt := List.mem_range.mp (List.mem_reverse.mp (List.mem_of_find?_eq_some hslot))
      rw [List.find?_range_eq_none] at hfind
      exact ⟨hlt, fun j hj => (Bool.not_eq_true' _).mp (hfind j (hj.trans hlt))⟩
  rw [usedSlot, List.find?_range_eq_some]
  refine ⟨hfound, List.mem_range.mpr hfirst.1, fun j hj => ?_⟩
  rw [hothers j (Nat.ne_of_lt hj), hfirst.2 j hj]
  rfl

theorem manufacturerSlot_of_usedSlot {manufacturer : DevManufacturer} {i : ℕ}
    (hslot : usedSlot g manufacturer = some i) :
    manufacturerSlot g manufacturer = some i := by
  rw [usedSlot] at hslot
  rw [manufacturerSlot]
  simp only [hslot]

theorem zbIeeeAddrCompress_of_usedSlot {i : ℕ}
    (hslot : usedSlot g ieee.deviceManufacturer = some i) :
    zbIeeeAddrCompress g ieee = some (g, ⟨i, ieee.deviceId⟩) := by
  have hheld := List.find?_some hslot
  rw [Bool.and_eq_true, beq_iff_eq] at hheld
  have hused : update g.usedManufacturer i true = g.usedManufacturer := by
    rw [← hheld.1, update_eq_self]
  have hdev : update g.devManufacturer i ieee.deviceManufacturer = g.devManufacturer := by
    rw [← hheld.2, update_eq_self]
  rw [zbIeeeAddrCompress, manufacturerSlot_of_usedSlot hslot]
  simp only [hused, hdev]

theorem usedSlot_zbIeeeAddrCompress
    (hcompress : zbIeeeAddrCompress g ieee = some (g', c)) :
    usedSlot g' ieee.deviceManufacturer = some c.devManufacturer ∧
      c.deviceId = ieee.deviceId := by
  obtain ⟨i, hslot, rfl, rfl⟩ := zbIeeeAddrCompress_eq_some hcompress
  exact ⟨usedSlot_of_manufacturerSlot hslot rfl rfl, rfl⟩

theorem usedSlot_stays {manufacturer : DevManufacturer} {i : ℕ}
    (hslot : usedSlot g manufacturer = some i)
    (hcompress : zbIeeeAddrCompress g ieee = some (g', c)) :
    usedSlot g' manufacturer = some i := by
  cases hother : usedSlot g ieee.deviceManufacturer with
  | some j =>
    rw [zbIeeeAddrCompress_of_usedSlot hother] at hcompress
    obtain ⟨rfl, -⟩ := Prod.mk.inj (some.inj hcompress)
    exact hslot
  | none =>
    have hne : ieee.deviceManufacturer ≠ manufacturer := by
      rintro rfl
      rw [hother] at hslot
      cases hslot
    obtain ⟨j, hfree, -, rfl⟩ := zbIeeeAddrCompress_eq_some hcompress
    have hunused : g.usedManufacturer j = false := by
      rw [usedSlot] at hother
      rw [manufacturerSlot] at hfree
      simp only [hother] at hfree
      have hunused := List.find?_some hfree
      simpa using hunused
    have hsame : (fun k => update g.usedManufacturer j true k &&
        update g.devManufacturer j ieee.deviceManufacturer k == manufacturer) =
        fun k => g.usedManufacturer k && g.devManufacturer k == manufacturer := by
      funext k
      by_cases hk : k = j
      · subst hk
        simp [hunused, hne]
      · rw [update_of_ne hk, update_of_ne hk]
    rw [usedSlot, hsame]
    exact hslot

theorem SameTable.ieeeSearch_eq (hsame : SameTable g g')
    (c : IeeeAddrCompressed) : ieeeSearch g' c = ieeeSearch g c := by
  simp only [ieeeSearch, (hsame.entry _).used, (hsame.entry _).ieeeAddr]

theorem SameTable.ieeeRef_eq (hsame : SameTable g g') (ieee : IeeeAddr) :
    ieeeRef g' ieee = ieeeRef g ieee := by
  simp only [ieeeRef, usedSlot, hsame.usedManufacturer, hsame.devManufacturer,
    hsame.ieeeSearch_eq]

theorem ieeeRef_of_ieeeSearch {ref : ℕ}
    (hcompress : zbIeeeAddrCompress g ieee = some (g', c)) :
    ieeeSearch g' c = some ref ↔ ieeeRef g' ieee = some ref := by
  obtain ⟨hslot, hid⟩ := usedSlot_zbIeeeAddrCompress hcompress
  rw [ieeeRef, hslot, bind_some, ← hid]

theorem zbAddressByIeee_of_ieeeRef {ref : ℕ}
    (hknown : ieeeRef g ieee = some ref) (create : Bool) :
    zbAddressByIeee g ieee create false = some (g.markClock ref, .ok ref) := by
  obtain ⟨i, hslot, hsearch⟩ := bind_eq_some_iff.mp hknown
  rw [zbAddressByIeee, zbIeeeAddrCompress_of_usedSlot hslot]
  simp only [bind_eq_bind, bind_some, hsearch]
  rfl

theorem AddedAt.ieeeSearch_self {i : ℕ} (hadded : AddedAt g (some c) unknownShort i g')
    (habsent : ieeeSearch g c = none) : ieeeSearch g' c = some i := by
  have hhash : zbAddressCompressedIeeeHash c < ieeeAddrTableSize :=
    Nat.mod_lt _ (by decide)
  have hmatch : ((g'.addrMap i).used && (g'.addrMap i).ieeeAddr == c) =
      true := by
    simp [hadded.used, hadded.ieeeAddr]
  refine CyclicProbe.probe_eq_of_unique hhash (freeEntry_spec hadded.free).1 hmatch ?_
  intro other hlt hother
  by_contra hne
  have hsame := hadded.others other hne
  rw [hsame.used, hsame.ieeeAddr, CyclicProbe.probe_eq_none hhash habsent hlt] at hother
  cases hother

theorem AddedAt.ieeeSearch_other {c' : IeeeAddrCompressed} {i ref : ℕ}
    (hadded : AddedAt g (some c) unknownShort i g')
    (habsent : ieeeSearch g c = none) (hfound : ieeeSearch g c' = some ref) :
    ieeeSearch g' c' = some ref := by
  have hne : c ≠ c' := by
    rintro rfl
    rw [habsent] at hfound
    cases hfound
  have hsame : (fun k => (g'.addrMap k).used && (g'.addrMap k).ieeeAddr == c') =
      fun k => (g.addrMap k).used && (g.addrMap k).ieeeAddr == c' := by
    funext k
    by_cases hk : k = i
    · subst hk
      simp [hadded.ieeeAddr, hne, (freeEntry_spec hadded.free).2]
    · rw [(hadded.others k hk).used, (hadded.others k hk).ieeeAddr]
  rw [ieeeSearch, hsame]
  exact hfound

end LookUp

section ByIeee

variable {g g' : AddrGlobals} {ieee other : IeeeAddr} {create : Bool} {ref : ℕ}
  {ret : Except RetError ℕ}

theorem ieeeRef_of_zbAddressByIeee
    (hcall : zbAddressByIeee g ieee create false = some (g', .ok ref)) :
    ieeeRef g' ieee = some ref := by
  obtain ⟨g₁, c, hcompress, ⟨found, hsearch, hret, hlock⟩ |
    ⟨-, -, -, hret⟩ | ⟨habsent, -, g₂, ret', hadd, hlock⟩⟩ := zbAddressByIeee_eq_some hcall
  · obtain rfl := Except.ok.inj hret
    obtain ⟨-, rfl | ⟨_, hfalse, -⟩⟩ := lockResult_eq_some hlock
    · rw [(sameTable_markClock g₁ _).ieeeRef_eq]
      exact (ieeeRef_of_ieeeSearch hcompress).mp hsearch
    · cases hfalse
  · cases hret
  · obtain ⟨hret, rfl | ⟨_, hfalse, -⟩⟩ := lockResult_eq_some hlock
    · subst hret
      rcases addrAdd_eq_some hadd with ⟨-, hfull, -⟩ | ⟨i, hok, hadded⟩
      · cases hfull
      · obtain rfl := Except.ok.inj hok
        obtain ⟨hslot, hid⟩ := usedSlot_zbIeeeAddrCompress hcompress
        have hsearch := hadded.ieeeSearch_self habsent
        rw [ieeeRef, usedSlot, hadded.usedManufacturer, hadded.devManufacturer]
        rw [usedSlot] at hslot
        rw [hslot, bind_some, ← hid]
        exact hsearch
    · cases hfalse

theorem ieeeRef_stays (hknown : ieeeRef g other = some ref)
    (hcall : zbAddressByIeee g ieee create false = some (g', ret)) :
    ieeeRef g' other = some ref := by
  obtain ⟨g₁, c, hcompress, hcases⟩ := zbAddressByIeee_eq_some hcall
  obtain ⟨i, hslot, hsearch⟩ := bind_eq_some_iff.mp hknown
  have hslot₁ := usedSlot_stays hslot hcompress
  have hsearch₁ : ieeeSearch g₁ ⟨i, other.deviceId⟩ = some ref := by
    obtain ⟨-, -, -, rfl⟩ := zbIeeeAddrCompress_eq_some hcompress
    exact hsearch
  have hknown₁ : ieeeRef g₁ other = some ref := by
    rw [ieeeRef, hslot₁]
    exact hsearch₁
  rcases hcases with ⟨found, -, -, hlock⟩ | ⟨-, -, rfl, -⟩ |
    ⟨habsent, -, g₂, ret', hadd, hlock⟩
  · obtain ⟨-, rfl | ⟨_, hfalse, -⟩⟩ := lockResult_eq_some hlock
    · rw [(sameTable_markClock g₁ _).ieeeRef_eq]
      exact hknown₁
    · cases hfalse
  · exact hknown₁
  · obtain ⟨-, rfl | ⟨_, hfalse, -⟩⟩ := lockResult_eq_some hlock
    · rcases addrAdd_eq_some hadd with ⟨-, -, rfl⟩ | ⟨k, -, hadded⟩
      · exact hknown₁
      · rw [ieeeRef, usedSlot, hadded.usedManufacturer, hadded.devManufacturer]
        rw [usedSlot] at hslot₁
        rw [hslot₁]
        exact hadded.ieeeSearch_other habsent hsearch₁
    · cases hfalse

end ByIeee

end Zboss
