import Mathlib.Data.Finset.Card
import Zboss.AddressTranslationMap

/-!
# Runs of the compression of long addresses

The manufacturers of the addresses which are compressed take the slots of the
table of manufacturers one after the other.  A slot which is used keeps its
manufacturer, so a compressed address stands for the same long address in
every later context.
-/

namespace Zboss

open List

def zbAddressCompressedCmp (one two : IeeeAddrCompressed) : Bool :=
  one.devManufacturer == two.devManufacturer && one.deviceId == two.deviceId

structure CompressCall where
  compressed : IeeeAddrCompressed
  context : AddrGlobals

/-- One call of `zb_ieee_addr_compress` for each address; `none` once one of
them asserts. -/
def compressCalls : AddrGlobals → List IeeeAddr → Option (List CompressCall)
  | _, [] => some []
  | g, address :: rest =>
      match zbIeeeAddrCompress g address with
      | none => none
      | some (next, compressed) => (compressCalls next rest).map (⟨compressed, next⟩ :: ·)

theorem zbAddressCompressedCmp_comm (one two : IeeeAddrCompressed) :
    zbAddressCompressedCmp one two = zbAddressCompressedCmp two one := by
  rw [zbAddressCompressedCmp, zbAddressCompressedCmp,
    BEq.comm (a := one.devManufacturer), BEq.comm (a := one.deviceId)]

variable {address : IeeeAddr} {g g' : AddrGlobals} {c : IeeeAddrCompressed}
  {manufacturers : Finset DevManufacturer}

theorem compressCalls_cons {g next : AddrGlobals} {rest : List IeeeAddr}
    {compressed : IeeeAddrCompressed} {calls : List CompressCall}
    (hcompress : zbIeeeAddrCompress g address = some (next, compressed))
    (hcalls : compressCalls next rest = some calls) :
    compressCalls g (address :: rest) = some (⟨compressed, next⟩ :: calls) := by
  simp [compressCalls, hcompress, hcalls]

structure SlotsWithin
    (manufacturers : Finset DevManufacturer) (g : AddrGlobals) : Prop where
  distinct : DistinctManufacturers g
  within : ∀ i, i < devManufacturerTableSize → g.usedManufacturer i = true →
    g.devManufacturer i ∈ manufacturers

def KeepsSlots (g g' : AddrGlobals) : Prop :=
  ∀ i, g.usedManufacturer i = true → g'.usedManufacturer i = true ∧
      g'.devManufacturer i = g.devManufacturer i

structure StandsFor
    (g : AddrGlobals) (compressed : IeeeAddrCompressed) (address : IeeeAddr) :
    Prop where
  lt : compressed.devManufacturer < devManufacturerTableSize
  used : g.usedManufacturer compressed.devManufacturer = true
  decompressed : zbIeeeAddrDecompress g compressed = address

theorem KeepsSlots.trans {g g₁ g₂ : AddrGlobals}
    (hfirst : KeepsSlots g g₁) (hsecond : KeepsSlots g₁ g₂) :
    KeepsSlots g g₂ := by
  intro i hused
  obtain ⟨hused₁, hslot₁⟩ := hfirst i hused
  obtain ⟨hused₂, hslot₂⟩ := hsecond i hused₁
  exact ⟨hused₂, hslot₂.trans hslot₁⟩

theorem StandsFor.later {compressed : IeeeAddrCompressed}
    (hstands : StandsFor g compressed address) (hkeeps : KeepsSlots g g') :
    StandsFor g' compressed address := by
  obtain ⟨hused, hslot⟩ := hkeeps _ hstands.used
  refine ⟨hstands.lt, hused, ?_⟩
  rw [← hstands.decompressed, zbIeeeAddrDecompress, zbIeeeAddrDecompress, hslot]

theorem slotsWithin_zeroed (manufacturers : Finset DevManufacturer) :
    SlotsWithin manufacturers .zeroed where
  distinct := by
    intro i j _ _ hused
    cases hused
  within := by
    intro i _ hused
    cases hused

theorem CompressedIn.keepsSlots (hin : CompressedIn g address g' c) : KeepsSlots g g' := by
  intro i hused
  by_cases hi : i = c.devManufacturer
  · subst hi
    refine ⟨hin.used, ?_⟩
    rcases hin.before with ⟨_, hslot⟩ | ⟨hfree, _⟩
    · rw [hin.slot, hslot]
    · rw [hused] at hfree
      contradiction
  · obtain ⟨hused', hslot⟩ := hin.others i hi
    exact ⟨hused'.trans hused, hslot⟩

theorem CompressedIn.standsFor
    (hin : CompressedIn g address g' c) : StandsFor g' c address where
  lt := hin.lt
  used := hin.used
  decompressed := by rw [zbIeeeAddrDecompress, hin.slot, hin.deviceId]

section

variable (hslots : SlotsWithin manufacturers g)

include hslots

theorem CompressedIn.slotsWithin (hmem : address.deviceManufacturer ∈ manufacturers)
    (hin : CompressedIn g address g' c) : SlotsWithin manufacturers g' where
  distinct := hin.distinct hslots.distinct
  within := by
    intro i hi hused
    by_cases hic : i = c.devManufacturer
    · rw [hic, hin.slot]
      exact hmem
    · rw [(hin.others i hic).1] at hused
      rw [(hin.others i hic).2]
      exact hslots.within i hi hused

theorem SlotsWithin.manufacturerSlot_isSome {manufacturer : DevManufacturer}
    (hfew : manufacturers.card ≤ devManufacturerTableSize)
    (hmem : manufacturer ∈ manufacturers) :
    ∃ i, manufacturerSlot g manufacturer = some i := by
  by_contra hnone
  rw [not_exists] at hnone
  have hnone := Option.eq_none_iff_forall_ne_some.mpr hnone
  simp only [manufacturerSlot] at hnone
  split at hnone
  · cases hnone
  · rename_i hfind
    rw [List.find?_eq_none] at hfind hnone
    have hall : ∀ i, i < devManufacturerTableSize → g.usedManufacturer i = true := by
      intro i hi
      simpa using hnone i (by simpa using hi)
    have hother : ∀ i, i < devManufacturerTableSize →
        g.devManufacturer i ≠ manufacturer := by
      intro i hi heq
      exact hfind i (mem_range.mpr hi) (by simp [hall i hi, heq])
    let held := (Finset.range devManufacturerTableSize).image g.devManufacturer
    have hcard : held.card = devManufacturerTableSize := by
      rw [Finset.card_image_of_injOn, Finset.card_range]
      intro i hi j hj heq
      simp only [Finset.coe_range, Set.mem_Iio] at hi hj
      exact hslots.distinct i j hi hj (hall i hi) (hall j hj) heq
    have hheld : held ⊆ manufacturers.erase manufacturer := by
      intro m hm
      obtain ⟨i, hi, rfl⟩ := Finset.mem_image.mp hm
      have hi := Finset.mem_range.mp hi
      exact Finset.mem_erase.mpr ⟨hother i hi, hslots.within i hi (hall i hi)⟩
    have hle := Finset.card_le_card hheld
    rw [hcard, Finset.card_erase_of_mem hmem] at hle
    have hpos := Finset.card_pos.mpr ⟨manufacturer, hmem⟩
    omega

theorem SlotsWithin.zbIeeeAddrCompress
    (hfew : manufacturers.card ≤ devManufacturerTableSize)
    (hmem : address.deviceManufacturer ∈ manufacturers) :
    ∃ g' c, zbIeeeAddrCompress g address = some (g', c) ∧
      CompressedIn g address g' c ∧ SlotsWithin manufacturers g' := by
  obtain ⟨i, hslot⟩ := hslots.manufacturerSlot_isSome hfew hmem
  cases hcompress : Zboss.zbIeeeAddrCompress g address with
  | none => simp [Zboss.zbIeeeAddrCompress, hslot] at hcompress
  | some result =>
    have hin := compressedIn_of_zbIeeeAddrCompress hcompress
    exact ⟨result.1, result.2, rfl, hin, hin.slotsWithin hslots hmem⟩

end

theorem SlotsWithin.cmp_iff {one two : IeeeAddrCompressed} {a b : IeeeAddr}
    (hslots : SlotsWithin manufacturers g)
    (hone : StandsFor g one a) (htwo : StandsFor g two b) :
    zbAddressCompressedCmp one two = true ↔ a = b := by
  rw [zbAddressCompressedCmp, Bool.and_eq_true, beq_iff_eq, beq_iff_eq,
    ← hone.decompressed, ← htwo.decompressed, zbIeeeAddrDecompress,
    zbIeeeAddrDecompress, IeeeAddr.mk.injEq]
  apply and_congr_left
  intro _
  constructor
  · intro heq
    rw [heq]
  · exact hslots.distinct _ _ hone.lt htwo.lt hone.used htwo.used

structure FaithfulCalls
    (g : AddrGlobals) (addresses : List IeeeAddr) (calls : List CompressCall) :
    Prop where
  length_eq : calls.length = addresses.length
  keepsSlots : ∀ call ∈ calls, KeepsSlots g call.context
  standsFor : ∀ (i j : ℕ) (call later : CompressCall), i ≤ j →
    calls[i]? = some call → calls[j]? = some later →
    ∃ address, addresses[i]? = some address ∧
      StandsFor later.context call.compressed address

theorem SlotsWithin.compressCalls {addresses : List IeeeAddr}
    (hslots : SlotsWithin manufacturers g)
    (hfew : manufacturers.card ≤ devManufacturerTableSize)
    (hmem : ∀ address ∈ addresses, address.deviceManufacturer ∈ manufacturers) :
    ∃ calls, Zboss.compressCalls g addresses = some calls ∧
      FaithfulCalls g addresses calls ∧
      ∀ call ∈ calls, SlotsWithin manufacturers call.context := by
  induction addresses generalizing g with
  | nil => exact ⟨[], rfl, ⟨rfl, by simp, by simp⟩, by simp⟩
  | cons address rest ih =>
    rw [forall_mem_cons] at hmem
    obtain ⟨next, c, hcompress, hin, hnext⟩ := hslots.zbIeeeAddrCompress hfew hmem.1
    obtain ⟨calls, hcalls, hfaithful, hwithin⟩ := ih hnext hmem.2
    refine ⟨⟨c, next⟩ :: calls, compressCalls_cons hcompress hcalls, ?_, ?_⟩
    · constructor
      · rw [length_cons, length_cons, hfaithful.length_eq]
      · rw [forall_mem_cons]
        refine ⟨hin.keepsSlots, ?_⟩
        intro call hcall
        exact hin.keepsSlots.trans (hfaithful.keepsSlots call hcall)
      · intro i j call later hij hcall hlater
        cases i with
        | zero =>
          obtain rfl : (⟨c, next⟩ : CompressCall) = call := by simpa using hcall
          refine ⟨address, rfl, ?_⟩
          -- The call itself, or a later one.
          rcases mem_cons.mp (mem_of_getElem? hlater) with
            rfl | hmem
          · exact hin.standsFor
          · exact hin.standsFor.later (hfaithful.keepsSlots later hmem)
        | succ i =>
          cases j with
          | zero => omega
          | succ j =>
            exact hfaithful.standsFor i j call later (by omega)
              hcall hlater
    · rw [forall_mem_cons]
      exact ⟨hnext, hwithin⟩

def manufacturersOf (addresses : List IeeeAddr) : Finset DevManufacturer :=
  (addresses.map IeeeAddr.deviceManufacturer).toFinset

structure Lossless (addresses : List IeeeAddr) (calls : List CompressCall) : Prop where
  length_eq : calls.length = addresses.length
  decompress : ∀ (i j : ℕ) (call later : CompressCall), i ≤ j →
    calls[i]? = some call → calls[j]? = some later →
    addresses[i]? = some (zbIeeeAddrDecompress later.context call.compressed)
  compare : ∀ (i j : ℕ) (call other : CompressCall),
    calls[i]? = some call → calls[j]? = some other →
    (zbAddressCompressedCmp call.compressed other.compressed = true ↔
      addresses[i]? = addresses[j]?)

/-- As long as the addresses have no more manufacturers than there are slots,
all calls return, each result decompresses to its address in every later
context, and results are equal exactly where the addresses are. -/
theorem compressCalls_lossless (addresses : List IeeeAddr)
    (hfew : (manufacturersOf addresses).card ≤ devManufacturerTableSize) :
    ∃ calls, compressCalls .zeroed addresses = some calls ∧
      Lossless addresses calls := by
  have hmem : ∀ address ∈ addresses,
      address.deviceManufacturer ∈ manufacturersOf addresses := by
    intro address haddress
    exact mem_toFinset.mpr (mem_map_of_mem haddress)
  obtain ⟨calls, hcalls, hfaithful, hwithin⟩ :=
    (slotsWithin_zeroed (manufacturersOf addresses)).compressCalls hfew hmem
  -- Two results are compared in the context of the later one.
  have hordered : ∀ (i j : ℕ) (call other : CompressCall), i ≤ j →
      calls[i]? = some call → calls[j]? = some other →
      (zbAddressCompressedCmp call.compressed other.compressed = true ↔
        addresses[i]? = addresses[j]?) := by
    intro i j call other hij hcall hother
    obtain ⟨a, ha, hstandsa⟩ := hfaithful.standsFor i j call other hij hcall hother
    obtain ⟨b, hb, hstandsb⟩ := hfaithful.standsFor j j other other le_rfl hother hother
    rw [ha, hb, Option.some.injEq]
    exact (hwithin other (mem_of_getElem? hother)).cmp_iff hstandsa hstandsb
  refine ⟨calls, hcalls, hfaithful.length_eq, ?_, ?_⟩
  · intro i j call later hij hcall hlater
    obtain ⟨address, haddress, hstands⟩ :=
      hfaithful.standsFor i j call later hij hcall hlater
    rw [haddress, hstands.decompressed]
  · intro i j call other hcall hother
    rcases Nat.le_total i j with hij | hji
    · exact hordered i j call other hij hcall hother
    · rw [zbAddressCompressedCmp_comm, eq_comm (a := addresses[i]?)]
      exact hordered j i other call hji hother hcall

def twoManufacturers : List IeeeAddr :=
  [⟨⟨1, 2, 3⟩, ⟨1, 0, 0, 0, 0⟩⟩, ⟨⟨4, 5, 6⟩, ⟨1, 0, 0, 0, 0⟩⟩,
    ⟨⟨1, 2, 3⟩, ⟨2, 0, 0, 0, 0⟩⟩]

theorem compressCalls_lossless_twoManufacturers :
    (manufacturersOf twoManufacturers).card ≤ devManufacturerTableSize ∧
      ∃ calls, compressCalls .zeroed twoManufacturers = some calls ∧
        Lossless twoManufacturers calls :=
  ⟨by decide, compressCalls_lossless twoManufacturers (by decide)⟩

end Zboss
