import Zboss.Nvram
import Zboss.TransitionSystem

/-!
# The sections of the first page

Each writer stores its own section and keeps the others, erasing the page or
not.  The configuration loses two flags on the way back, and the data of the
network are written over the old ones without an erase.
-/

namespace Zboss

open Option ByteOrder FlashMemory TransitionSystem

section Fields

variable {flash : ℕ → UInt8} {pos : ℕ}

theorem toNat_configPos (hpos : pos < 256) :
    (UInt8.ofNat (configPage + pos)).toNat = pos := by
  rw [UInt8.toNat_ofNat', configPage, Nat.zero_add]
  exact Nat.mod_eq_of_lt hpos

theorem writeFields_eq_program {fields : List (List UInt8)}
    (hpos : pos < 256) (hend : pos + fields.flatten.length ≤ 255) :
    writeFields flash pos fields =
      program scratchpad flash pos fields.flatten := by
  induction fields generalizing flash pos with
  | nil => rfl
  | cons field rest ih =>
    rw [List.flatten_cons, List.length_append] at hend
    rw [writeFields, ih (by omega) (by omega), List.flatten_cons,
      program_append, zbWriteNvram, toNat_configPos hpos]

theorem readFields_eq_iff {fields : List (List UInt8)}
    (hend : pos + fields.flatten.length ≤ 255) :
    readFields flash pos (fields.map List.length) = fields ↔
      read flash pos fields.flatten.length = fields.flatten := by
  induction fields generalizing pos with
  | nil => exact iff_of_true rfl rfl
  | cons field rest ih =>
    rw [List.flatten_cons, List.length_append] at hend ⊢
    rw [List.map_cons, readFields, List.cons.injEq, read_add,
      ih (by omega), zbReadNvram, toNat_configPos (by omega)]
    constructor
    · rintro ⟨hfield, hrest⟩
      rw [hfield, hrest]
    · intro hall
      exact List.append_inj hall (length_read _ _ _)

theorem readFields_congr
    {other : ℕ → UInt8} {sizes : List ℕ} (hend : pos + sizes.sum ≤ 255)
    (hsame : ∀ x, pos ≤ x → x < pos + sizes.sum → flash x = other x) :
    readFields flash pos sizes = readFields other pos sizes := by
  induction sizes generalizing pos with
  | nil => rfl
  | cons size rest ih =>
    rw [List.sum_cons] at hend hsame
    have hpos := toNat_configPos (show pos < 256 by omega)
    rw [readFields, readFields, zbReadNvram, zbReadNvram, hpos,
      ih (by omega) fun x hx hx' => hsame x (by omega) (by omega)]
    congr 1
    apply read_congr
    intro i hi
    exact hsame _ (by omega) (by omega)

theorem ofBytes_eq_some_iff {cells : List UInt8} {address : IeeeAddr} :
    IeeeAddr.ofBytes cells = some address ↔ cells = address.toBytes := by
  constructor
  · intro hread
    unfold IeeeAddr.ofBytes at hread
    split at hread
    case h_1 =>
      obtain rfl := some.inj hread
      rfl
    case h_2 => exact absurd hread (some_ne_none _).symm
  · rintro rfl
    rfl

end Fields

structure StoresSection (flash next : ℕ → UInt8) (pos : ℕ)
    (cells : List UInt8) : Prop where
  stored : read next pos cells.length = cells
  others : ∀ x, x < pos ∨ pos + cells.length ≤ x → next x = flash x

def NvramConfig.cells (config : NvramConfig) : List UInt8 :=
  config.flags :: config.macExtendedAddress.toBytes

theorem foldl_complement_eq_zero {buf : List UInt8} {tmp : UInt8} :
    buf.foldl (fun tmp byte => tmp ||| ~~~byte) tmp = 0 ↔
      tmp = 0 ∧ ∀ byte ∈ buf, byte = 0xFF := by
  induction buf generalizing tmp with
  | nil => simp
  | cons byte rest ih =>
    have hbyte : ~~~byte = 0 ↔ byte = 0xFF := UInt8.not_eq_comm
    rw [List.foldl_cons, ih, UInt8.or_eq_zero_iff, hbyte, List.forall_mem_cons, and_assoc]

theorem zbTestNvram_iff {flash : ℕ → UInt8} {pos : UInt8} {len : ℕ} :
    (zbTestNvram flash pos len).1 = true ↔ ∀ i < len, flash (pos.toNat + i) = 0xFF := by
  rw [zbTestNvram, decide_eq_true_iff, foldl_complement_eq_zero, zbReadNvram,
    FlashMemory.read, List.forall_mem_map]
  simp

theorem config_stores {flash next : ℕ → UInt8} {config : NvramConfig}
    (htail : ∀ x, 9 ≤ x → x < 128 → next x = flash x)
    (hothers : ∀ x, x < 9 ∨ 128 ≤ x → next x =
      program scratchpad (zbEraseNvram flash 0) 0 config.cells x) :
    StoresSection flash next 0 config.cells := by
  have hcells : config.cells.length = 9 := rfl
  constructor
  · have hstored : read (program scratchpad (zbEraseNvram flash 0) 0 config.cells) 0
          config.cells.length = config.cells := by
      apply read_program_of_blank
      intro i hi
      rw [hcells] at hi
      exact erase_of_mem (Nat.zero_le _) (by
        rw [scratchpadPageSize]
        omega)
    refine Eq.trans (read_congr ?_) hstored
    intro i hi
    rw [hcells] at hi
    exact hothers _ (.inl (by omega))
  · intro x hx
    rw [hcells] at hx
    by_cases hin : x < 128
    · exact htail x (by omega) hin
    · rw [hothers x (.inr (by omega)), program_of_not_mem (.inr (by rw [hcells]; omega))]
      exact erase_of_not_mem (.inr (by rw [scratchpadPageSize]; omega))

theorem zbWriteNvramConfig_stores (flash : ℕ → UInt8) (config : NvramConfig) :
    StoresSection flash (zbWriteNvramConfig flash config) 0 config.cells := by
  have hcells : config.cells.length = 9 := rfl
  have hfields : writeFields (zbEraseNvram flash 0) 0
      [[config.flags], config.macExtendedAddress.toBytes] =
        program scratchpad (zbEraseNvram flash 0) 0 config.cells :=
    writeFields_eq_program (by decide) (by decide : 9 ≤ 255)
  have herased : ∀ x, 9 ≤ x → x < 128 →
      program scratchpad (zbEraseNvram flash 0) 0 config.cells x = 0xFF := by
    intro x hfrom hto
    rw [program_of_not_mem (.inr (by rw [hcells]; omega))]
    exact erase_of_mem (Nat.zero_le x) (by rwa [scratchpadPageSize])
  rw [zbWriteNvramConfig]
  dsimp only
  rw [hfields]
  apply config_stores
  · intro x hfrom hto
    split
    case isTrue hblank =>
      have hcell := zbTestNvram_iff.mp hblank (x - 9) (by
        rw [scratchpadPageSize, configSize]
        omega)
      change flash (9 + (x - 9)) = 0xFF at hcell
      rw [Nat.add_sub_cancel' hfrom] at hcell
      rw [herased x hfrom hto, hcell]
    case isFalse =>
      apply program_read_of_saved
      · intro y hy hy'
        exact .inl (herased y hy hy')
      · exact hfrom
      · exact hto
  · intro x hx
    split
    case isTrue => rfl
    case isFalse =>
      apply program_of_not_mem
      change x < 9 ∨ 9 + (read flash 9 119).length ≤ x
      rw [length_read]
      omega

theorem length_fields (order : ByteOrder) (data : Formdesc) :
    (data.fields order).flatten.length = 28 := by
  simp [Formdesc.fields, IeeeAddr.toBytes]

theorem zbWriteFormdescData_eq (order : ByteOrder) (flash : ℕ → UInt8) (data : Formdesc) :
    zbWriteFormdescData order flash data =
      program scratchpad flash 9 (data.fields order).flatten := by
  have hfields : writeFields flash configSize (data.fields order) =
      program scratchpad flash 9 (data.fields order).flatten := by
    apply writeFields_eq_program
    · decide
    · rw [length_fields]
      decide
  have hsame : ∀ pos count, pos + count ≤ 9 ∨ 37 ≤ pos → read flash pos count =
        read (program scratchpad flash 9 (data.fields order).flatten)
          pos count := by
    intro pos count hdisjoint
    rw [read_program_of_disjoint]
    rw [length_fields]
    omega
  rw [zbWriteFormdescData]
  dsimp only [zbReadNvram, zbWriteNvram]
  rw [hfields, hsame _ configSize (.inl (by decide)), program_read,
    hsame _ keySectionSize (.inr (by decide)), program_read]

def keyCells (keys : Fin 3 → CcmKey) : List (List UInt8) :=
  (List.finRange 3).map fun i => (keys i).toList

theorem length_keyCells (keys : Fin 3 → CcmKey) : (keyCells keys).flatten.length = 48 := by
  simp [keyCells, List.finRange_succ]

theorem foldl_writeKeys (flash : ℕ → UInt8) (keys : Fin 3 → CcmKey) :
    (List.finRange 3).foldl (fun flash (i : Fin 3) =>
        zbWriteNvram flash (keyPos i) (keys i).toList) flash =
      program scratchpad flash 80 (keyCells keys).flatten := by
  have hcells : (keyCells keys).flatten =
      (keys 0).toList ++ ((keys 1).toList ++ (keys 2).toList) := by
    simp [keyCells, List.finRange_succ]
  rw [hcells, program_append, program_append, Vector.length_toList, Vector.length_toList]
  rfl

theorem zbWriteSecurityKey_stores (flash : ℕ → UInt8) (keys : Fin 3 → CcmKey) :
    StoresSection flash (zbWriteSecurityKey flash keys) 80 (keyCells keys).flatten := by
  have hcells := length_keyCells keys
  have herased : ∀ x, x < 128 → zbEraseNvram flash configPage x = 0xFF :=
    fun x hx => erase_of_mem (Nat.zero_le x) hx
  have hwrite : zbWriteSecurityKey flash keys =
      program scratchpad (program scratchpad (zbEraseNvram flash configPage) 80
        (keyCells keys).flatten) 0 (read flash 0 80) := by
    rw [zbWriteSecurityKey, foldl_writeKeys]
    rfl
  rw [hwrite]
  constructor
  · rw [read_program_of_disjoint (.inr (by rw [length_read]))]
    apply read_program_of_blank
    intro i hi
    exact herased _ (by omega)
  · intro x hx
    rw [hcells] at hx
    rcases hx with hbefore | hbehind
    · apply program_read_of_saved
      · intro y _ hy
        left
        rw [program_of_not_mem (.inl (by omega))]
        exact herased y (by omega)
      · exact Nat.zero_le x
      · omega
    · rw [program_of_not_mem (.inr (by rw [length_read]; omega)),
        program_of_not_mem (.inr (by omega))]
      exact erase_of_not_mem (.inr hbehind)

def NvramConfig.given (config : NvramConfig) (whole : Bool) : ConfigRead where
  apsDesignatedCoordinator := config.apsDesignatedCoord
  apsInsecureJoin := config.apsUseInsecureJoin
  apsUseExtendedPanId := if whole then some config.apsUseExtendedPanId else none
  macExtendedAddress := some config.macExtendedAddress

def Formdesc.given (data : Formdesc) (whole : Bool) : FormdescRead where
  profileInUse := if whole then some data.profileInUse else none
  longParentAddr := some data.longParentAddr
  apsChannelMask := data.apsChannelMask
  shortParentAddr := data.shortParentAddr
  depth := data.depth
  panId := data.panId
  extPanId := some data.extPanId
  nwkShortAddr := data.nwkShortAddr

section Readers

variable {flash : ℕ → UInt8} {order : ByteOrder} {cells : List UInt8}

theorem zbReadSecurityKey_iff {keys : Fin 3 → CcmKey} :
    (∀ i, zbReadSecurityKey flash i = (keys i).toList) ↔
      read flash 80 (keyCells keys).flatten.length = (keyCells keys).flatten := by
  have hread : readFields flash 80 ((keyCells keys).map List.length) =
      (List.finRange 3).map (zbReadSecurityKey flash) := by
    rw [keyCells, List.map_map]
    simp [List.finRange_succ]
    rfl
  rw [← readFields_eq_iff (by rw [length_keyCells]; decide), hread, keyCells,
    List.map_inj_left]
  simp

theorem shift_and_one (flag : UInt8) : flag <<< 1 &&& 1 = 0 := by
  revert flag
  exact forall_uint8 (by decide)

theorem shift_two_and_one (flag : UInt8) : flag <<< 2 &&& 1 = 0 := by
  revert flag
  exact forall_uint8 (by decide)

theorem shift_two_and_two (flag : UInt8) : flag <<< 2 &&& 2 = 0 := by
  revert flag
  exact forall_uint8 (by decide)

theorem and_one_eq_iff (flag : UInt8) : flag &&& 1 = flag ↔ flag ≤ 1 := by
  revert flag
  exact forall_uint8 (by decide)

theorem and_two_of_le (flag : UInt8) (hflag : flag ≤ 1) : flag &&& 2 = 0 := by
  revert flag
  exact forall_uint8 (by decide)

theorem shift_and_two_iff (flag : UInt8) : flag <<< 1 &&& 2 = flag ↔ flag = 0 := by
  revert flag
  exact forall_uint8 (by decide)

theorem flags_iff (config : NvramConfig) : config.flags &&& 1 = config.apsDesignatedCoord ∧
        config.flags &&& 2 = config.apsUseInsecureJoin ↔
      config.apsDesignatedCoord ≤ 1 ∧ config.apsUseInsecureJoin = 0 := by
  rw [NvramConfig.flags, or_and, or_and, or_and, or_and, shift_and_one,
    shift_two_and_one, shift_two_and_two, UInt8.or_zero, UInt8.or_zero,
    UInt8.or_zero, and_one_eq_iff]
  apply and_congr_right
  intro hcoord
  rw [and_two_of_le _ hcoord, UInt8.zero_or, shift_and_two_iff]

theorem zbConfigFromNvram_eq {config : NvramConfig}
    (hstored : read flash 0 config.cells.length = config.cells) :
    zbConfigFromNvram flash =
      { apsDesignatedCoordinator := config.flags &&& 1
        apsInsecureJoin := config.flags &&& 2
        apsUseExtendedPanId := none
        macExtendedAddress := some config.macExtendedAddress } := by
  have hbytes : 0 + [[config.flags], config.macExtendedAddress.toBytes].flatten.length ≤
        255 :=
    (by decide : 9 ≤ 255)
  have hfields : readFields flash 0 [1, 8] =
      [[config.flags], config.macExtendedAddress.toBytes] :=
    (readFields_eq_iff hbytes).mpr hstored
  rw [zbConfigFromNvram, hfields]
  rfl

theorem ofNat32_ofBytes_iff (hlength : cells.length = 4) {val : UInt32} :
    UInt32.ofNat (order.ofBytes cells) = val ↔ cells = order.bytes 4 val.toNat := by
  constructor
  · rintro rfl
    have hlt : order.ofBytes cells < 2 ^ 32 := order.ofBytes_lt hlength
    rw [UInt32.toNat_ofNat', Nat.mod_eq_of_lt hlt, order.bytes_ofBytes hlength]
  · rintro rfl
    rw [order.ofBytes_bytes val.toNat_lt, UInt32.ofNat_toNat]

theorem ofNat16_ofBytes_iff (hlength : cells.length = 2) {val : UInt16} :
    UInt16.ofNat (order.ofBytes cells) = val ↔ cells = order.bytes 2 val.toNat := by
  constructor
  · rintro rfl
    have hlt : order.ofBytes cells < 2 ^ 16 := order.ofBytes_lt hlength
    rw [UInt16.toNat_ofNat', Nat.mod_eq_of_lt hlt, order.bytes_ofBytes hlength]
  · rintro rfl
    rw [order.ofBytes_bytes val.toNat_lt, UInt16.ofNat_toNat]

theorem foldl_and_eq_blank {tmp : UInt8} : cells.foldl (· &&& ·) tmp = 0xFF ↔
      tmp = 0xFF ∧ ∀ byte ∈ cells, byte = 0xFF := by
  induction cells generalizing tmp with
  | nil => simp
  | cons byte rest ih =>
    rw [List.foldl_cons, ih, List.forall_mem_cons, ← and_assoc]
    exact and_congr_left' UInt8.and_eq_neg_one_iff

theorem ofNat8_iff {byte : UInt8} (hlength : cells.length = 1) :
    cells.getD 0 0 = byte ↔ cells = [byte] := by
  obtain ⟨cell, rfl⟩ := List.length_eq_one_iff.mp hlength
  simp

theorem zbReadFormdescData_iff {data : Formdesc} :
    zbReadFormdescData order flash = some (data.given false) ↔
      (∃ byte ∈ data.longParentAddr.toBytes, byte ≠ 0xFF) ∧
        read flash 10 (data.fields order).tail.flatten.length =
          (data.fields order).tail.flatten := by
  have hfields : readFields flash configSize formdescSizes =
      [read flash 9 1, read flash 10 8, read flash 18 4, read flash 22 2,
        read flash 24 1, read flash 25 2, read flash 27 8, read flash 35 2] :=
    rfl
  have htail : readFields flash 10 ((data.fields order).tail.map List.length) =
      [read flash 10 8, read flash 18 4, read flash 22 2, read flash 24 1,
        read flash 25 2, read flash 27 8, read flash 35 2] := by
    simp only [Formdesc.fields, List.tail_cons, List.map_cons, List.map_nil,
      ByteOrder.length_bytes]
    rfl
  have hlength : (data.fields order).tail.flatten.length = 27 := by
    simp [Formdesc.fields, IeeeAddr.toBytes]
  have hnonblank : (∃ byte ∈ data.longParentAddr.toBytes, byte ≠ 0xFF) ↔
      data.longParentAddr.toBytes.foldl (· &&& ·) 0xFF ≠ 0xFF := by
    rw [Ne, foldl_and_eq_blank]
    simp
  rw [← readFields_eq_iff (by rw [hlength]; decide), htail, hnonblank,
    zbReadFormdescData, hfields, Formdesc.fields]
  simp only [List.getD_cons_succ, List.getD_cons_zero, List.tail_cons,
    List.cons.injEq, and_true]
  by_cases hparent : (read flash 10 8).foldl (· &&& ·) 0xFF ≠ 0xFF
  · rw [if_pos hparent, some.injEq, Formdesc.given,
      FormdescRead.mk.injEq, ofBytes_eq_some_iff, ofBytes_eq_some_iff,
      ofNat32_ofBytes_iff (length_read _ _ _),
      ofNat16_ofBytes_iff (length_read _ _ _),
      ofNat16_ofBytes_iff (length_read _ _ _),
      ofNat16_ofBytes_iff (length_read _ _ _),
      ofNat8_iff (length_read _ _ _)]
    constructor
    · rintro ⟨_, hlong, hrest⟩
      exact ⟨hlong ▸ hparent, hlong, hrest⟩
    · rintro ⟨_, hall⟩
      exact ⟨rfl, hall⟩
  · rw [if_neg hparent]
    refine iff_of_false (some_ne_none _).symm ?_
    rintro ⟨hgiven, hlong, _⟩
    exact hparent (hlong ▸ hgiven)

end Readers

/-! ## Runs -/

structure NvramHistory where
  flash : ℕ → UInt8
  config : Option NvramConfig
  formdesc : Option Formdesc
  keys : Option (Fin 3 → CcmKey)

inductive NvramWrite where
  | nvramConfig (config : NvramConfig)
  | formdescData (data : Formdesc)
  | securityKey (keys : Fin 3 → CcmKey)

def NvramWrite.region : NvramWrite → ℕ × ℕ
  | nvramConfig _ => (0, configSize)
  | formdescData _ => (configSize, formdescSizes.sum)
  | securityKey _ => (scratchpadPageSize - keySectionSize, keySectionSize)

namespace NvramHistory

def start (flash : ℕ → UInt8) : NvramHistory where
  flash
  config := none
  formdesc := none
  keys := none

def step (order : ByteOrder) (history : NvramHistory) : NvramWrite → Option NvramHistory
  | .nvramConfig config =>
      some { history with
        flash := zbWriteNvramConfig history.flash config
        config := some config }
  | .formdescData data =>
      some { history with
        flash := zbWriteFormdescData order history.flash data
        formdesc := some data }
  | .securityKey keys =>
      some { history with
        flash := zbWriteSecurityKey history.flash keys
        keys := some keys }

variable {order : ByteOrder} {whole : Bool} {history next : NvramHistory}

/-- The readers return what was written last; if `whole`, all of it. -/
structure ReadsBack (order : ByteOrder) (whole : Bool)
    (history : NvramHistory) : Prop where
  config : ∀ config ∈ history.config, zbConfigFromNvram history.flash = config.given whole
  formdesc : ∀ data ∈ history.formdesc,
    zbReadFormdescData order history.flash = some (data.given whole)
  keys : ∀ keys ∈ history.keys, ∀ i, zbReadSecurityKey history.flash i = (keys i).toList

def LeavesOthers (order : ByteOrder) (history : NvramHistory)
    (write : NvramWrite) : Prop :=
  ∀ next, history.step order write = some next →
    ∀ x, x < write.region.1 ∨ write.region.1 + write.region.2 ≤ x →
      next.flash x = history.flash x

/-- The flags are 0, and 1 for a designated coordinator only; of the parent's
address a byte is not blank, and behind the profile no bit is cleared which is
to be set. -/
def Keeps (order : ByteOrder) (history : NvramHistory) : NvramWrite → Prop
  | .nvramConfig config => config.apsDesignatedCoord ≤ 1 ∧ config.apsUseInsecureJoin = 0
  | .formdescData data =>
      (∃ byte ∈ data.longParentAddr.toBytes, byte ≠ 0xFF) ∧
        ∀ i (hi : i < (data.fields order).tail.flatten.length),
          history.flash (configSize + 1 + i) &&& (data.fields order).tail.flatten[i] =
            (data.fields order).tail.flatten[i]
  | .securityKey _ => True

/-! ### Other sections -/

theorem leavesOthers (order : ByteOrder) (history : NvramHistory)
    (write : NvramWrite) : history.LeavesOthers order write := by
  intro next hstep x hx
  cases write with
  | nvramConfig config =>
    rw [← some.inj hstep]
    exact (zbWriteNvramConfig_stores history.flash config).others x hx
  | formdescData data =>
    rw [← some.inj hstep]
    dsimp only
    rw [zbWriteFormdescData_eq]
    apply program_of_not_mem
    rw [length_fields]
    exact hx
  | securityKey keys =>
    rw [← some.inj hstep]
    have hcells := length_keyCells keys
    exact (zbWriteSecurityKey_stores history.flash keys).others x (by rwa [hcells])

theorem zbConfigFromNvram_congr {flash other : ℕ → UInt8}
    (hsame : ∀ x < 9, flash x = other x) :
    zbConfigFromNvram flash = zbConfigFromNvram other := by
  rw [zbConfigFromNvram, zbConfigFromNvram,
    readFields_congr (by decide : 0 + [1, 8].sum ≤ 255)
      fun x _ hx => hsame x hx]

theorem zbReadFormdescData_congr {flash other : ℕ → UInt8}
    (hsame : ∀ x, 9 ≤ x → x < 37 → flash x = other x) :
    zbReadFormdescData order flash = zbReadFormdescData order other := by
  rw [zbReadFormdescData, zbReadFormdescData, readFields_congr (by decide) hsame]

theorem zbReadSecurityKey_congr {flash other : ℕ → UInt8}
    (hsame : ∀ x, 80 ≤ x → x < 128 → flash x = other x) (i : Fin 3) :
    zbReadSecurityKey flash i = zbReadSecurityKey other i := by
  apply read_congr
  have hpos : 80 ≤ (keyPos i).toNat ∧ (keyPos i).toNat + 16 ≤ 128 := by
    revert i
    decide
  intro k hk
  rw [nvramKeySize] at hk
  exact hsame _ (by omega) (by omega)

/-! ### One write -/

section

variable (hback : history.ReadsBack order whole)

include hback

theorem readsBack_config_iff {config : NvramConfig}
    (hstep : history.step order (.nvramConfig config) = some next) :
    next.ReadsBack order whole ↔ zbConfigFromNvram next.flash = config.given whole := by
  have hothers := leavesOthers order history _ next hstep
  obtain rfl := some.inj hstep
  constructor
  · intro hnext
    exact hnext.config config rfl
  · intro hconfig
    refine ⟨?_, ?_, ?_⟩
    · rintro _ ⟨⟩
      exact hconfig
    · intro data hdata
      rw [← hback.formdesc data hdata]
      exact zbReadFormdescData_congr fun x hx _ => hothers x (.inr hx)
    · intro keys hkeys i
      rw [← hback.keys keys hkeys i]
      exact zbReadSecurityKey_congr
        (fun x hx _ => hothers x (.inr (Nat.le_trans (by decide : 9 ≤ 80) hx))) i

theorem readsBack_formdesc_iff {data : Formdesc}
    (hstep : history.step order (.formdescData data) = some next) :
    next.ReadsBack order whole ↔
      zbReadFormdescData order next.flash = some (data.given whole) := by
  have hothers := leavesOthers order history _ next hstep
  obtain rfl := some.inj hstep
  constructor
  · intro hnext
    exact hnext.formdesc data rfl
  · intro hdata
    refine ⟨?_, ?_, ?_⟩
    · intro config hconfig
      rw [← hback.config config hconfig]
      exact zbConfigFromNvram_congr fun x hx => hothers x (.inl hx)
    · rintro _ ⟨⟩
      exact hdata
    · intro keys hkeys i
      rw [← hback.keys keys hkeys i]
      exact zbReadSecurityKey_congr
        (fun x hx _ => hothers x (.inr (Nat.le_trans (by decide : 37 ≤ 80) hx))) i

theorem ReadsBack.keys_step {keys : Fin 3 → CcmKey}
    (hstep : history.step order (.securityKey keys) = some next) :
    next.ReadsBack order whole := by
  have hothers := leavesOthers order history _ next hstep
  obtain rfl := some.inj hstep
  refine ⟨?_, ?_, ?_⟩
  · intro config hconfig
    rw [← hback.config config hconfig]
    exact zbConfigFromNvram_congr fun x hx =>
      hothers x (.inl (Nat.lt_of_lt_of_le hx (by decide : 9 ≤ 80)))
  · intro data hdata
    rw [← hback.formdesc data hdata]
    exact zbReadFormdescData_congr fun x _ hx =>
      hothers x (.inl (Nat.lt_of_lt_of_le hx (by decide : 37 ≤ 80)))
  · rintro _ ⟨⟩
    exact zbReadSecurityKey_iff.mpr (zbWriteSecurityKey_stores history.flash keys).stored

end

theorem config_given_iff (flash : ℕ → UInt8) (config : NvramConfig) :
    zbConfigFromNvram (zbWriteNvramConfig flash config) = config.given whole ↔
      whole = false ∧ config.apsDesignatedCoord ≤ 1 ∧ config.apsUseInsecureJoin = 0 := by
  rw [zbConfigFromNvram_eq (zbWriteNvramConfig_stores flash config).stored,
    NvramConfig.given, ConfigRead.mk.injEq, ← flags_iff]
  cases whole with
  | false => simp
  | true => simp

theorem formdesc_given_iff (flash : ℕ → UInt8) (data : Formdesc) :
    zbReadFormdescData order (zbWriteFormdescData order flash data) =
        some (data.given false) ↔
      (∃ byte ∈ data.longParentAddr.toBytes, byte ≠ 0xFF) ∧
        ∀ i (hi : i < (data.fields order).tail.flatten.length),
          flash (configSize + 1 + i) &&& (data.fields order).tail.flatten[i] =
            (data.fields order).tail.flatten[i] := by
  have hsplit : (data.fields order).flatten =
      [data.profileInUse] ++ (data.fields order).tail.flatten := rfl
  rw [zbReadFormdescData_iff, zbWriteFormdescData_eq, hsplit, program_append]
  apply and_congr_right'
  refine read_program_iff.trans (forall₂_congr fun i hi => ?_)
  rw [program_of_not_mem (.inr (Nat.le_add_right _ i))]
  rfl

theorem not_formdesc_whole (flash : ℕ → UInt8) (data : Formdesc) :
    zbReadFormdescData order flash ≠ some (data.given true) := by
  intro hread
  rw [zbReadFormdescData] at hread
  split at hread
  case isTrue =>
    have hprofile := congrArg FormdescRead.profileInUse (some.inj hread)
    exact absurd hprofile (some_ne_none _).symm
  case isFalse => exact absurd hread (some_ne_none _).symm

theorem readsBack_step_iff (hback : history.ReadsBack order false) (write : NvramWrite) :
    (∀ next, history.step order write = some next →
        next.ReadsBack order false) ↔ history.Keeps order write := by
  cases write with
  | nvramConfig config =>
    refine Iff.trans ?_ ((readsBack_config_iff hback rfl).trans
      ((config_given_iff history.flash config).trans (and_iff_right rfl)))
    exact ⟨fun h => h _ rfl, fun h next hnext => some.inj hnext ▸ h⟩
  | formdescData data =>
    refine Iff.trans ?_ ((readsBack_formdesc_iff hback rfl).trans
      (formdesc_given_iff history.flash data))
    exact ⟨fun h => h _ rfl, fun h next hnext => some.inj hnext ▸ h⟩
  | securityKey keys => exact iff_of_true (fun _ hnext => hback.keys_step hnext) trivial

theorem readsBack_whole_iff (hback : history.ReadsBack order true) (write : NvramWrite) :
    (∀ next, history.step order write = some next →
        next.ReadsBack order true) ↔ ∃ keys, write = .securityKey keys := by
  cases write with
  | nvramConfig config =>
    refine iff_of_false (fun hall => ?_) (by simp)
    have hread := (readsBack_config_iff hback rfl).mp (hall _ rfl)
    exact Bool.noConfusion ((config_given_iff history.flash config).mp hread).1
  | formdescData data =>
    refine iff_of_false (fun hall => ?_) (by simp)
    have hread := (readsBack_formdesc_iff hback rfl).mp (hall _ rfl)
    exact not_formdesc_whole _ data hread
  | securityKey keys =>
    exact iff_of_true (fun _ hnext => hback.keys_step hnext) ⟨keys, rfl⟩

/-! ### Any number of writes -/

theorem readsBack_start (flash : ℕ → UInt8) : (start flash).ReadsBack order whole where
  config _ hconfig := absurd hconfig (not_mem_none _)
  formdesc _ hdata := absurd hdata (not_mem_none _)
  keys _ hkeys := absurd hkeys (not_mem_none _)

theorem everyState_readsBack_iff
    (order : ByteOrder) (flash : ℕ → UInt8) (writes : List NvramWrite) :
    EveryState (step order) (ReadsBack order false) (start flash) writes ↔
      AlongRun (step order) (Keeps order) (start flash) writes :=
  everyState_iff_alongRun (fun _ write hback (_ : True) => readsBack_step_iff hback write)
    (fun _ _ _ _ _ _ _ => trivial) (readsBack_start flash) trivial

/-- Every write leaves the other sections as they are.  All that was given is
read back if only keys are written; what the readers return is read back
exactly as long as no flag and no cleared bit stands against it. -/
theorem sections_readBack_iff
    (order : ByteOrder) (flash : ℕ → UInt8) (writes : List NvramWrite) :
    (EveryState (step order) (ReadsBack order true) (start flash) writes ∧
        AlongRun (step order) (LeavesOthers order) (start flash) writes ↔
      AlongRun (step order) (fun _ write => ∃ keys, write = .securityKey keys)
        (start flash) writes) ∧
    (EveryState (step order) (ReadsBack order false) (start flash) writes ∧
        AlongRun (step order) (LeavesOthers order) (start flash) writes ↔
      AlongRun (step order) (Keeps order) (start flash) writes) := by
  have hothers : AlongRun (step order) (LeavesOthers order) (start flash)
      writes := alongRun_of_forall (leavesOthers order) _ _
  constructor
  · rw [and_iff_left hothers]
    exact everyState_iff_alongRun
      (fun _ write hback (_ : True) => readsBack_whole_iff hback write)
      (fun _ _ _ _ _ _ _ => trivial) (readsBack_start flash) trivial
  · rw [and_iff_left hothers]
    exact everyState_readsBack_iff order flash writes

def movedDevice (depth : UInt8) : Formdesc where
  profileInUse := 2
  longParentAddr := .zero
  apsChannelMask := 0x800
  shortParentAddr := 0
  depth
  panId := 0x1AAA
  extPanId := .zero
  nwkShortAddr := 1

theorem not_readsBack_movedDevice :
    ¬EveryState (step .littleEndian) (ReadsBack .littleEndian true)
        (start fun _ => 0xFF) [.nvramConfig ⟨0, 1, 1, .zero⟩] ∧
      ¬EveryState (step .littleEndian) (ReadsBack .littleEndian false)
        (start fun _ => 0xFF) [.nvramConfig ⟨0, 1, 1, .zero⟩] ∧
      ¬EveryState (step .littleEndian) (ReadsBack .littleEndian false)
        (start fun _ => 0xFF)
        [.formdescData (movedDevice 1), .formdescData (movedDevice 2)] := by
  refine ⟨?_, ?_, ?_⟩
  · rintro ⟨_, hnext⟩
    obtain ⟨keys, hkeys⟩ := (readsBack_whole_iff (readsBack_start _) _).mp hnext
    exact absurd hkeys (by simp)
  · rw [everyState_readsBack_iff]
    rintro ⟨⟨_, hflag⟩, _⟩
    exact absurd hflag (by decide)
  · rw [everyState_readsBack_iff]
    rintro ⟨_, hnext⟩
    obtain ⟨⟨_, hcells⟩, _⟩ := hnext _ rfl
    exact absurd (hcells 14 (by decide)) (by decide)

end NvramHistory

end Zboss
