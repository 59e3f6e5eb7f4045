import Zboss.NetworkFormation
import Mathlib.Data.Prod.Lex

/-!
# The network which a coordinator forms

Beacons of the active scan are not remembered, so that what counts is the table
of an earlier discovery.  A network is formed on a good channel exactly if what
this table favours is one, and the energies which are read are those of the
array only for channels with numbers below its length.
-/

namespace Zboss

open Option List

section Search

variable (offered : ℕ → Prop) (count level : ℕ → UInt8)

def channelCost (c : ℕ) : ℕ ×ₗ ℕ := toLex ((count c).toNat, (level c).toNat)

/-- Networks were found on all channels offered before `c`, at least as many
as on `c`. -/
def Examined (c : ℕ) : Prop :=
  offered c ∧ ∀ old < c, offered old → count old ≠ 0 ∧ count c ≤ count old

def Favoured (c : ℕ) : Prop :=
  offered c ∧ ((count c = 0 ∧ ∀ old < c, offered old → count old ≠ 0) ∨
      ∀ other, offered other → count other ≠ 0 ∧
          channelCost count level c ≤ channelCost count level other ∧
          (c < other → channelCost count level c < channelCost count level other))

variable {offered count level}

theorem Favoured.eq {c d : ℕ} (hc : Favoured offered count level c)
    (hd : Favoured offered count level d) : c = d := by
  obtain ⟨hoffered, hcase⟩ := hc
  obtain ⟨hoffered', hcase'⟩ := hd
  rcases hcase with ⟨hzero, hfirst⟩ | hleast
  · rcases hcase' with ⟨hzero', hfirst'⟩ | hleast'
    · by_contra hne
      rcases Nat.lt_or_gt_of_ne hne with hlt | hgt
      · exact hfirst' c hlt hoffered hzero
      · exact hfirst d hgt hoffered' hzero'
    · exact absurd hzero (hleast' c hoffered).1
  · rcases hcase' with ⟨hzero', -⟩ | hleast'
    · exact absurd hzero' (hleast d hoffered').1
    · by_contra hne
      rcases Nat.lt_or_gt_of_ne hne with hlt | hgt
      · exact absurd (hleast' c hoffered).2.1 (not_le_of_gt ((hleast d hoffered').2.2 hlt))
      · exact absurd (hleast d hoffered').2.1 (not_le_of_gt ((hleast' c hoffered).2.2 hgt))

/-- What is known before the channel `i` is looked at, unless the search has
ended. -/
structure Searching (offered : ℕ → Prop) (count level : ℕ → UInt8) (i : ℕ)
    (choice : ChannelChoice) : Prop where
  nonzero : ∀ c < i, offered c → count c ≠ 0
  unique : choice.uniquePanId = false
  least : ∀ c < i, offered c →
    toLex (choice.channelNetworks.toNat, choice.channelEd.toNat) ≤
      channelCost count level c
  kept : (choice = { initialChoice with reads := choice.reads } ∧ ∀ c < i, ¬ offered c) ∨
    (choice.channel < i ∧ offered choice.channel ∧
      choice.channelNetworks = count choice.channel ∧
      choice.channelEd = level choice.channel ∧
      ∀ c < i, offered c → choice.channel < c →
        channelCost count level choice.channel < channelCost count level c)
  energy : ∀ c, .energyDetect c ∈ choice.reads ↔ c < i ∧ Examined offered count c
  counts : ∀ k, .channelPanCount k ∈ choice.reads → k < macSupportedChannels

structure Found (offered : ℕ → Prop) (count level : ℕ → UInt8)
    (choice : ChannelChoice) : Prop where
  chosen : (∃ c, offered c) → Favoured offered count level choice.channel
  unique : choice.uniquePanId = true ↔ (∃ c, offered c) ∧ count choice.channel = 0
  none : (∀ c, ¬ offered c) → choice.channel = macStartChannelNumber
  energy : ∀ c, .energyDetect c ∈ choice.reads ↔ Examined offered count c
  counts : ∀ k, .channelPanCount k ∈ choice.reads → k < macSupportedChannels

variable {i : ℕ} {choice : ChannelChoice}

theorem searching_initial {start : ℕ} (hnone : ∀ c < start, ¬ offered c) :
    Searching offered count level start initialChoice where
  nonzero c hc hoffered := absurd hoffered (hnone c hc)
  unique := rfl
  least c hc hoffered := absurd hoffered (hnone c hc)
  kept := Or.inl ⟨rfl, hnone⟩
  energy c := by
    constructor
    · intro hmem
      exact absurd hmem not_mem_nil
    · rintro ⟨hc, hexamined⟩
      exact absurd hexamined.1 (hnone c hc)
  counts k hmem := absurd hmem not_mem_nil

namespace Searching

section

variable (h : Searching offered count level i choice)

include h

theorem examined_iff (hoffered : offered i) :
    Examined offered count i ↔ count i ≤ choice.channelNetworks := by
  rw [UInt8.le_iff_toNat_le]
  constructor
  · rintro ⟨-, hold⟩
    rcases h.kept with ⟨hinitial, -⟩ | ⟨hlt, hkept, hnetworks, -⟩
    · rw [hinitial]
      exact Nat.le_of_lt_succ (UInt8.toNat_lt (count i))
    · rw [hnetworks]
      exact UInt8.le_iff_toNat_le.mp (hold _ hlt hkept).2
  · intro hle
    refine ⟨hoffered, fun old hlt hold => ⟨h.nonzero old hlt hold, ?_⟩⟩
    have hleast := Prod.Lex.toLex_le_toLex.mp (h.least old hlt hold)
    refine UInt8.le_iff_toNat_le.mpr (le_trans hle ?_)
    rcases hleast with hless | ⟨heq, -⟩
    · exact Nat.le_of_lt hless
    · exact Nat.le_of_eq heq

theorem skip (hoffered : ¬ offered i) :
    Searching offered count level (i + 1) choice := by
  have hbelow : ∀ c < i + 1, offered c → c < i := by
    intro c hc hc'
    rcases Nat.lt_succ_iff_lt_or_eq.mp hc with hlt | rfl
    · exact hlt
    · exact absurd hc' hoffered
  refine
    { nonzero := fun c hc hc' => h.nonzero c (hbelow c hc hc') hc'
      unique := h.unique
      least := fun c hc hc' => h.least c (hbelow c hc hc') hc'
      kept := ?_
      energy := ?_
      counts := h.counts }
  · rcases h.kept with ⟨hinitial, hnone⟩ | ⟨hlt, hkept, hnetworks, hed, hlast⟩
    · exact Or.inl ⟨hinitial, fun c hc hc' => hnone c (hbelow c hc hc') hc'⟩
    · exact Or.inr ⟨Nat.lt_succ_of_lt hlt, hkept, hnetworks, hed,
        fun c hc hc' => hlast c (hbelow c hc hc') hc'⟩
  · intro c
    rw [h.energy c]
    constructor
    · rintro ⟨hc, hexamined⟩
      exact ⟨Nat.lt_succ_of_lt hc, hexamined⟩
    · rintro ⟨hc, hexamined⟩
      exact ⟨hbelow c hc hexamined.1, hexamined⟩

theorem channelNetworks_ne_zero : choice.channelNetworks ≠ 0 := by
  rcases h.kept with ⟨hinitial, -⟩ | ⟨hlt, hkept, hnetworks, -⟩
  · rw [hinitial]
    exact show (0xFF : UInt8) ≠ 0 by decide
  · rw [hnetworks]
    exact h.nonzero _ hlt hkept

end

/-- The reads after one of the array of networks at `i`, and one of the array
of energies if the channel is examined. -/
def ReadsAt (offered : ℕ → Prop) (count : ℕ → UInt8) (i : ℕ)
    (reads after : List TableRead) : Prop :=
  (∀ c, .energyDetect c ∈ after ↔
    .energyDetect c ∈ reads ∨ (c = i ∧ Examined offered count i)) ∧
  ∀ k, .channelPanCount k ∈ after → .channelPanCount k ∈ reads ∨ k < macSupportedChannels

theorem readsAt_examined {reads : List TableRead} (hexamined : Examined offered count i)
    (hplace : i - macStartChannelNumber < macSupportedChannels) :
    ReadsAt offered count i reads
      (.energyDetect i :: .channelPanCount (i - macStartChannelNumber) :: reads) := by
  constructor
  · intro c
    simp [hexamined, or_comm]
  · intro k hmem
    simp only [mem_cons, reduceCtorEq, false_or, TableRead.channelPanCount.injEq] at hmem
    rcases hmem with rfl | hold
    · exact Or.inr hplace
    · exact Or.inl hold

theorem readsAt_passed {reads : List TableRead} (hpassed : ¬ Examined offered count i)
    (hplace : i - macStartChannelNumber < macSupportedChannels) :
    ReadsAt offered count i reads
      (.channelPanCount (i - macStartChannelNumber) :: reads) := by
  constructor
  · intro c
    simp [hpassed]
  · intro k hmem
    simp only [mem_cons, TableRead.channelPanCount.injEq] at hmem
    rcases hmem with rfl | hold
    · exact Or.inr hplace
    · exact Or.inl hold

variable {after : List TableRead}

section

variable (h : Searching offered count level i choice)

include h

theorem energy_readsAt (hreads : ReadsAt offered count i choice.reads after) (c : ℕ) :
    .energyDetect c ∈ after ↔ c < i + 1 ∧ Examined offered count c := by
  rw [hreads.1 c, h.energy c]
  constructor
  · rintro (⟨hc, hexamined⟩ | ⟨rfl, hexamined⟩)
    · exact ⟨Nat.lt_succ_of_lt hc, hexamined⟩
    · exact ⟨Nat.lt_succ_self c, hexamined⟩
  · rintro ⟨hc, hexamined⟩
    rcases Nat.lt_succ_iff_lt_or_eq.mp hc with hlt | rfl
    · exact Or.inl ⟨hlt, hexamined⟩
    · exact Or.inr ⟨rfl, hexamined⟩

theorem counts_readsAt (hreads : ReadsAt offered count i choice.reads after) (k : ℕ)
    (hmem : .channelPanCount k ∈ after) : k < macSupportedChannels := by
  rcases hreads.2 k hmem with hold | hlt
  · exact h.counts k hold
  · exact hlt

theorem pass (hnonzero : count i ≠ 0)
    (hworse : toLex (choice.channelNetworks.toNat, choice.channelEd.toNat) <
      channelCost count level i)
    (hreads : ReadsAt offered count i choice.reads after) :
    Searching offered count level (i + 1) { choice with reads := after } where
  nonzero c hc hoffered := by
    rcases Nat.lt_succ_iff_lt_or_eq.mp hc with hlt | rfl
    · exact h.nonzero c hlt hoffered
    · exact hnonzero
  unique := h.unique
  least c hc hoffered := by
    rcases Nat.lt_succ_iff_lt_or_eq.mp hc with hlt | rfl
    · exact h.least c hlt hoffered
    · exact le_of_lt hworse
  kept := by
    rcases h.kept with ⟨hinitial, -⟩ | ⟨hlt, hkept, hnetworks, hed, hlast⟩
    · have hcount := UInt8.toNat_lt (count i)
      have hlevel := UInt8.toNat_lt (level i)
      rw [hinitial] at hworse
      rcases Prod.Lex.toLex_lt_toLex.mp hworse with hless | ⟨-, hless⟩
      · have : 255 < (count i).toNat := hless
        omega
      · have : 255 < (level i).toNat := hless
        omega
    · refine Or.inr ⟨Nat.lt_succ_of_lt hlt, hkept, hnetworks, hed, ?_⟩
      intro c hc hoffered hlater
      rcases Nat.lt_succ_iff_lt_or_eq.mp hc with hlt' | rfl
      · exact hlast c hlt' hoffered hlater
      · rw [hnetworks, hed] at hworse
        exact hworse
  energy := h.energy_readsAt hreads
  counts := h.counts_readsAt hreads

theorem replace (hoffered : offered i) (hnonzero : count i ≠ 0)
    (hbetter : channelCost count level i ≤
      toLex (choice.channelNetworks.toNat, choice.channelEd.toNat))
    (hreads : ReadsAt offered count i choice.reads after) :
    Searching offered count level (i + 1) ⟨i, count i, level i, false, after⟩ where
  nonzero c hc hoffered := by
    rcases Nat.lt_succ_iff_lt_or_eq.mp hc with hlt | rfl
    · exact h.nonzero c hlt hoffered
    · exact hnonzero
  unique := rfl
  least c hc hoffered := by
    rcases Nat.lt_succ_iff_lt_or_eq.mp hc with hlt | rfl
    · exact le_trans hbetter (h.least c hlt hoffered)
    · exact le_rfl
  kept := by
    refine Or.inr ⟨Nat.lt_succ_self i, hoffered, rfl, rfl, ?_⟩
    intro c hc _ hlater
    exact absurd hlater (Nat.not_lt.mpr (Nat.le_of_lt_succ hc))
  energy := h.energy_readsAt hreads
  counts := h.counts_readsAt hreads

theorem stop (hoffered : offered i) (hzero : count i = 0)
    (hreads : ReadsAt offered count i choice.reads after) :
    Found offered count level ⟨i, count i, level i, true, after⟩ where
  chosen _ := ⟨hoffered, Or.inl ⟨hzero, h.nonzero⟩⟩
  unique := ⟨fun _ => ⟨⟨i, hoffered⟩, hzero⟩, fun _ => rfl⟩
  none hnone := absurd hoffered (hnone i)
  energy c := by
    rw [h.energy_readsAt hreads c]
    constructor
    · rintro ⟨-, hexamined⟩
      exact hexamined
    · intro hexamined
      refine ⟨?_, hexamined⟩
      by_contra hlater
      exact (hexamined.2 i (by omega) hoffered).1 hzero
  counts := h.counts_readsAt hreads

theorem found (hall : ∀ c, offered c → c < i) : Found offered count level choice where
  chosen := by
    rintro ⟨c, hoffered⟩
    rcases h.kept with ⟨-, hnone⟩ | ⟨hlt, hkept, hnetworks, hed, hlast⟩
    · exact absurd hoffered (hnone c (hall c hoffered))
    · refine ⟨hkept, Or.inr fun other hother => ?_⟩
      have hbelow := hall other hother
      have hleast := h.least other hbelow hother
      rw [hnetworks, hed] at hleast
      exact ⟨h.nonzero other hbelow hother, hleast, hlast other hbelow hother⟩
  unique := by
    rw [h.unique]
    constructor
    · intro hfalse
      exact nomatch hfalse
    · rintro ⟨⟨c, hoffered⟩, hzero⟩
      rcases h.kept with ⟨-, hnone⟩ | ⟨hlt, hkept, -⟩
      · exact absurd hoffered (hnone c (hall c hoffered))
      · exact absurd hzero (h.nonzero _ hlt hkept)
  none hnone := by
    rcases h.kept with ⟨hinitial, -⟩ | ⟨-, hkept, -⟩
    · rw [hinitial]
      rfl
    · exact absurd hkept (hnone _)
  energy c := by
    rw [h.energy c]
    constructor
    · rintro ⟨-, hexamined⟩
      exact hexamined
    · intro hexamined
      exact ⟨hall c hexamined.1, hexamined⟩
  counts := h.counts

end

end Searching

/-- One induction over the channels which are left. -/
theorem selectChannel_found {scanned : ℕ → Bool} {rounds last : ℕ}
    (hoffered : ∀ c, offered c ↔ macStartChannelNumber ≤ c ∧ c < last ∧ scanned c)
    (hlast : i + rounds = last) (hstart : macStartChannelNumber ≤ i)
    (hplaces : last ≤ macStartChannelNumber + macSupportedChannels)
    (h : Searching offered count level i choice) :
    Found offered count level (selectChannel scanned count level rounds i choice) := by
  induction rounds generalizing i choice with
  | zero =>
    refine h.found fun c hc => ?_
    have := ((hoffered c).mp hc).2.1
    omega
  | succ rounds ih =>
    rw [selectChannel]
    by_cases hscanned : scanned i
    · have hat : offered i := (hoffered i).mpr ⟨hstart, by omega, hscanned⟩
      have hplace : i - macStartChannelNumber < macSupportedChannels := by omega
      rw [if_pos hscanned]
      dsimp only
      by_cases hle : count i ≤ choice.channelNetworks
      · have hexamined := (h.examined_iff hat).mpr hle
        have hreads := @Searching.readsAt_examined _ _ _ choice.reads hexamined hplace
        rw [if_pos hle]
        by_cases htie : count i = choice.channelNetworks ∧ level i > choice.channelEd
        · rw [if_pos htie]
          refine ih (by omega) (by omega) (h.pass ?_ ?_ hreads)
          · rw [htie.1]
            exact h.channelNetworks_ne_zero
          · refine Prod.Lex.toLex_lt_toLex.mpr (Or.inr ⟨?_, ?_⟩)
            · rw [htie.1]
            · exact UInt8.lt_iff_toNat_lt.mp htie.2
        · rw [if_neg htie]
          by_cases hzero : count i = 0
          · rw [if_pos hzero]
            exact h.stop hat hzero hreads
          · rw [if_neg hzero]
            refine ih (by omega) (by omega) (h.replace hat hzero ?_ hreads)
            refine Prod.Lex.toLex_le_toLex.mpr ?_
            rcases Nat.lt_or_eq_of_le (UInt8.le_iff_toNat_le.mp hle) with
              hless | heq
            · exact Or.inl hless
            · refine Or.inr ⟨heq, UInt8.le_iff_toNat_le.mp ?_⟩
              exact UInt8.not_lt.mp fun hgreater => htie ⟨UInt8.toNat_inj.mp heq, hgreater⟩
      · have hless : choice.channelNetworks.toNat < (count i).toNat :=
          UInt8.lt_iff_toNat_lt.mp (UInt8.not_le.mp hle)
        rw [if_neg hle]
        refine ih (by omega) (by omega) (h.pass ?_ ?_ ?_)
        · intro hzero
          rw [hzero] at hless
          exact absurd hless (Nat.not_lt_zero _)
        · exact Prod.Lex.toLex_lt_toLex.mpr (Or.inl hless)
        · exact Searching.readsAt_passed
            (fun hexamined => hle ((h.examined_iff hat).mp hexamined)) hplace
    · have hat : ¬ offered i := fun hat => hscanned ((hoffered i).mp hat).2.2
      rw [if_neg hscanned]
      exact ih (by omega) (by omega) (h.skip hat)

end Search

theorem getLsbD_channelMask {number : ℕ} (hnumber : number < 32) (c : ℕ) :
    (channelMask number).getLsbD c = decide (c = number) := by
  unfold channelMask
  rw [← BitVec.twoPow_eq, BitVec.getLsbD_twoPow]
  by_cases hc : c = number
  · rw [hc]
    simp [hnumber]
  · simp [hc, Ne.symm hc]

theorem and_channelMask_ne_zero
    {channels : BitVec 32} {number : ℕ} (hnumber : number < 32) :
    channels &&& channelMask number ≠ 0 ↔ channels.getLsbD number = true := by
  constructor
  · intro hne
    by_contra hunset
    refine hne (BitVec.eq_of_getLsbD_eq fun c hc => ?_)
    rw [BitVec.getLsbD_and, getLsbD_channelMask hnumber]
    by_cases hsame : c = number
    · rw [hsame, Bool.eq_false_of_not_eq_true hunset, Bool.false_and]
      exact (BitVec.getLsbD_zero).symm
    · simp [hsame]
  · intro hset hzero
    have hbit : (channels &&& channelMask number).getLsbD number = true := by
      rw [BitVec.getLsbD_and, getLsbD_channelMask hnumber, hset]
      simp
    rw [hzero] at hbit
    simp at hbit

theorem getLsbD_dropLoudChannel
    (energyDetect : Fin 16 → UInt8) (channels : BitVec 32) (i : Fin 16)
    (c : ℕ) :
    (dropLoudChannel energyDetect channels i).getLsbD c = true ↔
      channels.getLsbD c = true ∧ ¬ (c = macStartChannelNumber + i ∧
          energyDetect i > nwkChannelAcceptLevel) := by
  have hnumber : macStartChannelNumber + i < 32 := by
    have := i.isLt
    unfold macStartChannelNumber
    omega
  unfold dropLoudChannel
  simp only [and_channelMask_ne_zero hnumber]
  split
  · rename_i hloud
    rw [BitVec.getLsbD_xor, getLsbD_channelMask hnumber]
    by_cases hsame : c = macStartChannelNumber + i
    · simp [hsame, hloud.1, hloud.2]
    · simp [hsame]
  · rename_i hquiet
    constructor
    · intro hset
      refine ⟨hset, ?_⟩
      rintro ⟨rfl, hloud⟩
      exact hquiet ⟨hset, hloud⟩
    · exact And.left

theorem getLsbD_foldl_dropLoudChannel
    (energyDetect : Fin 16 → UInt8) (places : List (Fin 16))
    (channels : BitVec 32) (c : ℕ) :
    (places.foldl (dropLoudChannel energyDetect) channels).getLsbD c = true ↔
      channels.getLsbD c = true ∧ ∀ i ∈ places, ¬ (c = macStartChannelNumber + i ∧
          energyDetect i > nwkChannelAcceptLevel) := by
  induction places generalizing channels with
  | nil => simp
  | cons i rest ih =>
    rw [foldl_cons, ih, getLsbD_dropLoudChannel, forall_mem_cons, and_assoc]

namespace FormationInput

def single (input : FormationInput) : Bool :=
  magicIsPowerOfTwo input.scanChannels

def Permitted (input : FormationInput) (c : ℕ) : Prop :=
  macStartChannelNumber ≤ c ∧ c ≤ macMaxChannelNumber ∧
    input.scanChannels.getLsbD c = true ∧
      (input.single = false → ∀ i : Fin 16, c = macStartChannelNumber + i →
        input.energyDetect i ≤ nwkChannelAcceptLevel)

def heardOn (input : FormationInput) (c : ℕ) : List ScannedBeacon :=
  input.beacons.filter (·.channel.val == c)

def heardPanIds (input : FormationInput) (c : ℕ) : List UInt16 :=
  (input.heardOn c).map (·.srcPanId)

def heardNetworks (input : FormationInput) (c : ℕ) : ℕ :=
  ((input.heardOn c).map fun beacon =>
    (beacon.srcPanId, beacon.payload.map (·.extendedPanid))).dedup.length

structure PicksFreePan (input : FormationInput) : Prop where
  started : ∀ rounds device panId channel,
    input.result rounds = some (device, .startRequest panId channel) →
      input.Permitted channel ∧ (∀ other, input.Permitted other →
          input.heardNetworks channel ≤ input.heardNetworks other) ∧
        panId ∉ input.heardPanIds channel
  succeeds : input.device.state = .idle → input.device.joined = false →
    (∃ channel, input.Permitted channel) → ∃ rounds device panId channel,
        input.result rounds = some (device, .startRequest panId channel)
  inside : ∀ device, input.scanned = some device →
    ∀ read ∈ device.choice.reads, read.Inside

def selecting (input : FormationInput) : FormationDevice :=
  if input.single then
    { input.device with
      scanChannels := input.scanChannels
      scanDuration := input.scanDuration
      state := .formationActiveScan }
  else
    { input.device with
      scanChannels := dropLoudChannels input.energyDetect input.scanChannels
      scanDuration := input.scanDuration
      energyDetect := input.energyDetect
      tables := input.device.tables.start
      state := .formationActiveScan }

theorem start_extNeighbors (tables : ScanTables) :
    tables.start.extNeighbors = tables.extNeighbors := by
  unfold ScanTables.start
  split
  · rfl
  · rfl

theorem foldl_scanBeacon_active
    (role : StackRole) (deviceType : DeviceType) (rejoinPanId : ExtPanId)
    (tables : ScanTables) (beacons : List ScannedBeacon) :
    beacons.foldl (scanBeacon role .formationActiveScan deviceType rejoinPanId) tables =
        tables := by
  induction beacons with
  | nil => rfl
  | cons beacon rest ih => exact ih

variable {input : FormationInput} {c : ℕ} {panId : UInt16}

theorem scanned_eq (hidle : input.device.state = .idle)
    (hjoined : input.device.joined = false) :
    input.scanned = if input.single = true ∨
          dropLoudChannels input.energyDetect input.scanChannels ≠ 0 then
        some input.selecting
      else none := by
  unfold scanned activeScan zbNlmeNetworkFormationRequest
  rw [if_pos ⟨hidle, hjoined⟩]
  cases hsingle : magicIsPowerOfTwo input.scanChannels with
  | true =>
    rw [if_pos (show input.single = true ∨ _ from Or.inl hsingle)]
    simp [selecting, single, hsingle, foldl_scanBeacon_active]
  | false =>
    simp only [Bool.false_eq_true, ↓reduceIte, nwkFormationEdScanConfirm]
    by_cases hquiet : dropLoudChannels input.energyDetect input.scanChannels ≠ 0
    · rw [if_pos hquiet, if_pos (Or.inr hquiet)]
      simp [selecting, single, hsingle, foldl_scanBeacon_active]
    · rw [if_neg hquiet, if_neg]
      · rfl
      · rintro (htrue | hne)
        · rw [single, hsingle] at htrue
          exact nomatch htrue
        · exact hquiet hne

theorem scanned_eq_none
    (hrefused : ¬ (input.device.state = .idle ∧ input.device.joined = false)) :
    input.scanned = none := by
  unfold scanned activeScan zbNlmeNetworkFormationRequest
  rw [if_neg hrefused]
  rfl

theorem permitted_iff (input : FormationInput) (c : ℕ) : input.Permitted c ↔
      macStartChannelNumber ≤ c ∧ c < macMaxChannelNumber + 1 ∧
        input.selecting.scanChannels.getLsbD c = true := by
  rw [Permitted, Nat.lt_succ_iff]
  refine and_congr_right fun _ => and_congr_right fun _ => ?_
  unfold selecting
  cases hsingle : input.single with
  | true => simp
  | false =>
    simp only [forall_const, Bool.false_eq_true, ↓reduceIte]
    rw [dropLoudChannels, getLsbD_foldl_dropLoudChannel]
    refine and_congr_right fun _ => ?_
    constructor
    · rintro hquiet i - ⟨hc, hloud⟩
      exact absurd (hquiet i hc) (UInt8.not_le.mpr hloud)
    · intro hquiet i hc
      exact UInt8.not_lt.mp fun hloud => hquiet i (mem_finRange i) ⟨hc, hloud⟩

def panCount (input : FormationInput) : ℕ → UInt8 :=
  readChannelPanCount (channelPanCounts input.device.tables.extNeighbors)

def level (input : FormationInput) : ℕ → UInt8 :=
  readEnergyDetect (if input.single then input.device.energyDetect else input.energyDetect)
    (channelPanCounts input.device.tables.extNeighbors)

theorem extNeighbors_selecting (input : FormationInput) :
    input.selecting.tables.extNeighbors = input.device.tables.extNeighbors := by
  unfold selecting
  split
  · rfl
  · exact start_extNeighbors _

theorem panCount_selecting (input : FormationInput) :
    input.selecting.panCount = input.panCount := by
  funext i
  rw [FormationDevice.panCount, extNeighbors_selecting, panCount]

theorem level_selecting (input : FormationInput) :
    input.selecting.level = input.level := by
  funext i
  rw [FormationDevice.level, extNeighbors_selecting, level]
  unfold selecting
  split
  · rfl
  · rfl

theorem taken_selecting (input : FormationInput) (channel : ℕ) :
    input.selecting.tables.taken channel = input.device.tables.taken channel := by
  funext panId
  unfold selecting
  split
  · rfl
  · show input.device.tables.start.taken channel panId = _
    unfold ScanTables.taken ScanTables.start
    split
    · rfl
    · rfl

theorem macPanId_selecting (input : FormationInput) :
    input.selecting.macPanId = input.device.macPanId := by
  unfold selecting
  split
  · rfl
  · rfl

theorem choice_found (input : FormationInput) :
    Found input.Permitted input.panCount input.level input.selecting.choice := by
  rw [← panCount_selecting, ← level_selecting]
  exact selectChannel_found input.permitted_iff (by rfl) le_rfl (by decide)
    (searching_initial fun c hlt hpermitted => absurd hpermitted.1 (Nat.not_le.mpr hlt))

def Identifier (input : FormationInput) (c : ℕ) (panId : UInt16) : Prop :=
  if input.panCount c = 0 then
    panId = if input.device.macPanId = 0 then input.draws 0
      else input.device.macPanId
  else
    c ≠ macStartChannelNumber ∧ ∃ n, input.draws n = panId ∧
        input.device.tables.taken c panId = false ∧
          ∀ m < n, input.device.tables.taken c (input.draws m) = true

theorem Identifier.eq {panId panId' : UInt16}
    (hpan : input.Identifier c panId) (hpan' : input.Identifier c panId') :
    panId = panId' := by
  unfold Identifier at hpan hpan'
  split at hpan
  · rename_i hzero
    rw [if_pos hzero] at hpan'
    rw [hpan, hpan']
  · rename_i hmany
    rw [if_neg hmany] at hpan'
    obtain ⟨-, n, hdraw, hfree, hbefore⟩ := hpan
    obtain ⟨-, n', hdraw', hfree', hbefore'⟩ := hpan'
    rcases Nat.lt_trichotomy n n' with hlt | rfl | hgt
    · have htaken := hbefore' n hlt
      rw [hdraw, hfree] at htaken
      exact nomatch htaken
    · rw [← hdraw, hdraw']
    · have htaken := hbefore n' hgt
      rw [hdraw', hfree'] at htaken
      exact nomatch htaken

/-- The energies read are those of channels with numbers below the length of
the array, and the channel which the table of an earlier discovery favours is
a good one by the beacons heard. -/
structure Favourable (input : FormationInput) : Prop where
  low : ∀ c, input.Permitted c → macSupportedChannels ≤ c →
    ∃ old < c, input.Permitted old ∧
      (input.panCount old = 0 ∨ input.panCount old < input.panCount c)
  good : ∀ c, Favoured input.Permitted input.panCount input.level c →
    (∀ other, input.Permitted other → input.heardNetworks c ≤ input.heardNetworks other) ∧
      ∃ panId, input.Identifier c panId ∧ panId ∉ input.heardPanIds c

/-! ## The selection -/

theorem exists_drawPanId_iff {taken : UInt16 → Bool} {draws : ℕ → UInt16} :
    (∃ rounds, drawPanId taken draws rounds = some panId) ↔
      ∃ n, draws n = panId ∧ taken panId = false ∧ ∀ m < n, taken (draws m) = true := by
  constructor
  · rintro ⟨rounds, hdraw⟩
    obtain ⟨hfree, n, hn, heq, hbefore⟩ := List.find?_eq_some_iff_getElem.mp hdraw
    rw [getElem_map, getElem_range] at heq
    refine ⟨n, heq, by simpa using hfree, fun m hm => ?_⟩
    have htaken := hbefore m hm
    rw [getElem_map, getElem_range] at htaken
    simpa using htaken
  · rintro ⟨n, rfl, hfree, hbefore⟩
    refine ⟨n + 1, List.find?_eq_some_iff_getElem.mpr ⟨by simp [hfree], n, ?_⟩⟩
    refine ⟨by simp, by simp, fun m hm => ?_⟩
    rw [getElem_map, getElem_range, hbefore m hm]
    rfl

theorem callMlmeStart_eq_iff
    {device after : FormationDevice} {panId panId' : UInt16} {c c' : ℕ} :
    callMlmeStart device panId c = (after, .startRequest panId' c') ↔
      (callMlmeStart device panId c).1 = after ∧ panId = panId' ∧ c = c' := by
  constructor
  · intro heq
    obtain ⟨hafter, hcall⟩ := Prod.mk.inj heq
    exact ⟨hafter, FormationCall.startRequest.inj hcall⟩
  · rintro ⟨hafter, rfl, rfl⟩
    exact Prod.ext hafter rfl

section

variable (hidle : input.device.state = .idle) (hjoined : input.device.joined = false)

include hidle hjoined

theorem scanned_of_permitted (hpermitted : input.Permitted c) :
    input.scanned = some input.selecting := by
  rw [scanned_eq hidle hjoined, if_pos]
  by_contra hnone
  obtain ⟨hsingle, hzero⟩ := not_or.mp hnone
  have hbit := ((input.permitted_iff c).mp hpermitted).2.2
  unfold selecting at hbit
  rw [if_neg hsingle] at hbit
  simp [not_not.mp hzero] at hbit

theorem exists_started_iff (hpermitted : ∃ c, input.Permitted c) {channel : ℕ} :
    (∃ rounds device, input.result rounds = some (device, .startRequest panId channel)) ↔
      input.selecting.choice.channel = channel ∧ input.Identifier channel panId := by
  obtain ⟨c, hc⟩ := hpermitted
  have hfound := input.choice_found
  have hunique := hfound.unique
  simp only [result, scanned_of_permitted hidle hjoined hc, bind_some,
    nwkFormationSelectChannel, taken_selecting, macPanId_selecting]
  unfold Identifier
  by_cases hzero : input.panCount input.selecting.choice.channel = 0
  · have hdone := hunique.mpr ⟨⟨c, hc⟩, hzero⟩
    simp only [if_pos hdone]
    constructor
    · rintro ⟨-, device, hresult⟩
      obtain ⟨-, hpan, rfl⟩ := callMlmeStart_eq_iff.mp (some.inj hresult)
      rw [if_pos hzero]
      exact ⟨rfl, hpan.symm⟩
    · rintro ⟨rfl, hpan⟩
      rw [if_pos hzero] at hpan
      exact ⟨0, _, congrArg some (callMlmeStart_eq_iff.mpr ⟨rfl, hpan.symm, rfl⟩)⟩
  · have hmany : ¬ input.selecting.choice.uniquePanId = true :=
      fun htrue => hzero (hunique.mp htrue).2
    simp only [if_neg hmany]
    by_cases hfirst : input.selecting.choice.channel = macStartChannelNumber
    · simp only [ne_eq, hfirst, not_true_eq_false, ↓reduceIte,
        some.injEq, Prod.mk.injEq, reduceCtorEq, and_false,
        exists_false, false_iff]
      rintro ⟨rfl, hpan⟩
      rw [hfirst] at hzero
      rw [if_neg hzero] at hpan
      exact hpan.1 rfl
    · simp only [ne_eq, hfirst, not_false_eq_true, ↓reduceIte]
      constructor
      · rintro ⟨rounds, device, hresult⟩
        obtain ⟨drawn, hdraw, heq⟩ := map_eq_some_iff.mp hresult
        obtain ⟨-, rfl, rfl⟩ := callMlmeStart_eq_iff.mp heq
        rw [if_neg hzero]
        exact ⟨rfl, hfirst, exists_drawPanId_iff.mp ⟨rounds, hdraw⟩⟩
      · rintro ⟨rfl, hpan⟩
        rw [if_neg hzero] at hpan
        obtain ⟨rounds, hdraw⟩ := exists_drawPanId_iff.mpr hpan.2
        exact ⟨rounds, _, map_eq_some_iff.mpr
          ⟨panId, hdraw, callMlmeStart_eq_iff.mpr ⟨rfl, rfl, rfl⟩⟩⟩

end

theorem not_started (hnone : ∀ c, ¬ input.Permitted c)
    {rounds : ℕ} {device : FormationDevice} {channel : ℕ} :
    input.result rounds ≠ some (device, .startRequest panId channel) := by
  intro hresult
  obtain ⟨selecting, hscanned, hselect⟩ := bind_eq_some_iff.mp hresult
  by_cases htaken : input.device.state = .idle ∧ input.device.joined = false
  · rw [scanned_eq htaken.1 htaken.2] at hscanned
    split at hscanned
    · obtain rfl := some.inj hscanned
      have hfound := input.choice_found
      have hmany : ¬ input.selecting.choice.uniquePanId = true := by
        intro htrue
        obtain ⟨c, hc⟩ := (hfound.unique.mp htrue).1
        exact hnone c hc
      simp [nwkFormationSelectChannel, if_neg hmany, hfound.none hnone] at hselect
    · exact nomatch hscanned
  · rw [scanned_eq_none htaken] at hscanned
    exact nomatch hscanned

theorem inside_iff (input : FormationInput) :
    (∀ read ∈ input.selecting.choice.reads, read.Inside) ↔
      ∀ c, input.Permitted c → macSupportedChannels ≤ c →
        ∃ old < c, input.Permitted old ∧ (input.panCount old = 0 ∨
            input.panCount old < input.panCount c) := by
  have hfound := input.choice_found
  constructor
  · intro hinside c hpermitted hhigh
    by_contra hnone
    have hexamined : Examined input.Permitted input.panCount c := by
      refine ⟨hpermitted, fun old hlt hold => ⟨?_, ?_⟩⟩
      · intro hzero
        exact hnone ⟨old, hlt, hold, Or.inl hzero⟩
      · exact UInt8.not_lt.mp fun hless => hnone ⟨old, hlt, hold, Or.inr hless⟩
    exact Nat.not_lt.mpr hhigh (hinside _ ((hfound.energy c).mpr hexamined))
  · intro hlow read hmem
    cases read with
    | channelPanCount k => exact hfound.counts k hmem
    | energyDetect c =>
      by_contra hhigh
      have hexamined := (hfound.energy c).mp hmem
      obtain ⟨old, hlt, hold, hless⟩ := hlow c hexamined.1 (Nat.not_lt.mp hhigh)
      obtain ⟨hnonzero, hle⟩ := hexamined.2 old hlt hold
      rcases hless with hzero | hless
      · exact hnonzero hzero
      · exact UInt8.not_le.mpr hless hle

/-- A request which is accepted ends with a network on a free PAN exactly if
the earlier discovery and the beacons heard agree that far. -/
theorem picksFreePan_iff (input : FormationInput) : input.PicksFreePan ↔
      (input.device.state = .idle → input.device.joined = false → input.Favourable) := by
  constructor
  · intro hpicks hidle hjoined
    refine ⟨?_, ?_⟩
    · intro c hpermitted
      exact input.inside_iff.mp
        (hpicks.inside _ (scanned_of_permitted hidle hjoined hpermitted))
        c hpermitted
    · intro c hfavoured
      have hsome : ∃ c, input.Permitted c := ⟨c, hfavoured.1⟩
      obtain ⟨rounds, device, panId, channel, hresult⟩ :=
        hpicks.succeeds hidle hjoined hsome
      obtain ⟨hchannel, hpan⟩ :=
        (exists_started_iff hidle hjoined hsome).mp ⟨rounds, device, hresult⟩
      have hsame : channel = c := by
        rw [← hchannel]
        exact (input.choice_found.chosen hsome).eq hfavoured
      obtain ⟨-, hfewest, hfree⟩ := hpicks.started _ _ _ _ hresult
      rw [hsame] at hpan hfewest hfree
      exact ⟨hfewest, panId, hpan, hfree⟩
  · intro hfavourable
    refine ⟨?_, ?_, ?_⟩
    · intro rounds device panId channel hresult
      have hsome : ∃ c, input.Permitted c := by
        by_contra hnone
        exact not_started (not_exists.mp hnone) hresult
      obtain ⟨hidle, hjoined⟩ :
          input.device.state = .idle ∧ input.device.joined = false := by
        by_contra hrefused
        rw [result, scanned_eq_none hrefused] at hresult
        exact nomatch hresult
      obtain ⟨rfl, hpan⟩ :=
        (exists_started_iff hidle hjoined hsome).mp ⟨rounds, device, hresult⟩
      have hfavoured := input.choice_found.chosen hsome
      obtain ⟨hfewest, panId', hpan', hfree⟩ :=
        (hfavourable hidle hjoined).good _ hfavoured
      rw [hpan.eq hpan']
      exact ⟨hfavoured.1, hfewest, hfree⟩
    · intro hidle hjoined hsome
      have hfavoured := input.choice_found.chosen hsome
      obtain ⟨-, panId, hpan, -⟩ := (hfavourable hidle hjoined).good _ hfavoured
      obtain ⟨rounds, device, hresult⟩ :=
        (exists_started_iff hidle hjoined hsome).mpr ⟨rfl, hpan⟩
      exact ⟨rounds, device, panId, _, hresult⟩
    · intro device hscanned
      obtain ⟨hidle, hjoined⟩ :
          input.device.state = .idle ∧ input.device.joined = false := by
        by_contra hrefused
        rw [scanned_eq_none hrefused] at hscanned
        exact nomatch hscanned
      rw [scanned_eq hidle hjoined] at hscanned
      split at hscanned
      · obtain rfl := some.inj hscanned
        exact input.inside_iff.mpr (hfavourable hidle hjoined).low
      · exact nomatch hscanned

def resetDevice : FormationDevice where
  state := .idle
  joined := false
  deviceType := .none
  scanChannels := 0
  scanDuration := 0
  energyDetect _ := 0
  tables := .empty 0
  macPanId := 0x1AAA
  extPanId := 0
  extendedAddress := 1
  nib := ⟨4, 4, 5, 0, 0, 0, 0, 0xFFFF, true⟩

def otherNetwork : ScannedBeacon where
  srcPanId := 0x1AAA
  source := .short 0
  associationPermit := true
  lqi := 200
  channel := ⟨12, by decide⟩
  payload := some ⟨0, 1, 2, true, 0, true, 9, 0xFFFFFF, 0⟩

/-- The network is formed on the channel, and with the identifier, of the other
network, although channel 13 is free. -/
def occupied : FormationInput where
  device := resetDevice
  scanChannels := 0x3000
  scanDuration := 3
  energyDetect _ := 10
  beacons := [otherNetwork]
  draws _ := 0

theorem not_picksFreePan_occupied : ¬ occupied.PicksFreePan := by
  intro hpicks
  have hstarted : (occupied.result 0).map Prod.snd =
      some (.startRequest 0x1AAA 12) := by
    decide +kernel
  obtain ⟨⟨device, call⟩, hresult, hcall⟩ := map_eq_some_iff.mp hstarted
  rw [show call = _ from hcall] at hresult
  exact (hpicks.started 0 device 0x1AAA 12 hresult).2.2 (by decide)

end FormationInput

end Zboss
