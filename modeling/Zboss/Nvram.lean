import Zboss.ByteOrder
import Zboss.FlashMemory
import Zboss.NwkFrame
import Zboss.StackGlobals

/-!
# The scratchpad flash

The two pages of `zb_8051_nvram.c`: the sections of the first one with their
writers and readers, and the frame counters in the second one.  Numbers are
stored as they lie in memory, `ZB_BIG_ENDIAN` or, with the compiler of IAR,
`ZB_LITTLE_ENDIAN`.
-/

namespace Zboss

open FlashMemory

def scratchpad : Technology UInt8 where
  meld old new := old &&& new
  blank := 0xFF
  blank_meld cell := by
    rw [UInt8.and_comm]
    exact UInt8.and_neg_one
  meld_self _ := UInt8.and_self

def configPage : ℕ := 0

def volatilePage : ℕ := 128

def scratchpadPageSize : ℕ := 128

/-- `zb_erase_nvram`; its callers pass 0 and 1, as the assertion wants. -/
def zbEraseNvram (flash : ℕ → UInt8) (page : ℕ) : ℕ → UInt8 :=
  erase scratchpad flash (scratchpadPageSize * page) scratchpadPageSize

def zbWriteNvram (flash : ℕ → UInt8) (pos : UInt8) (buf : List UInt8) :
    ℕ → UInt8 :=
  program scratchpad flash pos.toNat buf

def zbReadNvram (flash : ℕ → UInt8) (pos : UInt8) (len : ℕ) : List UInt8 :=
  read flash pos.toNat len

/-- The buffer of a counter function: the page, and what lies behind it on the
stack. -/
def pageBuf (flash stack : ℕ → UInt8) (i : ℕ) : UInt8 :=
  if i < scratchpadPageSize then flash (volatilePage + i) else stack i

/-- The loop of `zb_write_up_counter` from `i` on, with the indices at which
the buffer is read. -/
def writeSearch (buf : ℕ → UInt8) : ℕ → ℕ × List ℕ
  | 0 => (0, [0])
  | i + 1 =>
      if buf (i + 1) ≠ 0xFF ∧ i + 1 < scratchpadPageSize then (i + 1, [i + 1])
      else
        let (found, examined) := writeSearch buf i
        (found, (i + 1) :: examined)

/-- What `zb_write_up_counter` does: the place of the counter, whether the page
was erased, and the indices at which the buffer was read. -/
structure UpCounterWrite where
  flash : ℕ → UInt8
  pos : UInt8
  erased : Bool
  examined : List ℕ

def zbWriteUpCounter (flash stack : ℕ → UInt8) (counter : List UInt8) : UpCounterWrite :=
  let buf := pageBuf flash stack
  if buf (scratchpadPageSize - 3) ≠ 0xFF then
    { flash :=
        zbWriteNvram (zbEraseNvram flash 1) (UInt8.ofNat volatilePage) counter
      pos := UInt8.ofNat volatilePage
      erased := true
      examined := [scratchpadPageSize - 3] }
  else
    let (i, examined) := writeSearch buf scratchpadPageSize
    let pos := UInt8.ofNat (volatilePage + i + i % 2)
    { flash := zbWriteNvram flash pos counter
      pos
      erased := false
      examined := (scratchpadPageSize - 3) :: examined }

/-- The loop of `zb_read_up_counter`, whose index wraps around below 0. -/
def readSearch (buf : ℕ → UInt8) : ℕ → UInt8 → Option UInt8 × List ℕ
  | 0, _ => (none, [])
  | fuel + 1, i =>
      if buf i.toNat ≠ 0xFF ∧ 3 < i then (some i, [i.toNat])
      else
        let (found, examined) := readSearch buf fuel (i - 1)
        (found, i.toNat :: examined)

/-- What `zb_read_up_counter` restores, and the indices at which the buffer was
read by the search. -/
def zbReadUpCounter (order : ByteOrder) (flash stack : ℕ → UInt8) :
    Option UInt32 × List ℕ :=
  let buf := pageBuf flash stack
  let search := readSearch buf 256 (UInt8.ofNat (scratchpadPageSize - 1))
  (search.1.map fun i =>
      UInt32.ofNat (order.ofBytes (read buf (i.toNat - 3) 4)),
    search.2)

def configSize : ℕ := 9

/-- `ZB_CCM_KEY_SIZE` -/
def nvramKeySize : ℕ := 16

/-- `ZB_SECUR_N_SECUR_MATERIAL` -/
def nvramKeys : ℕ := 3

def keySectionSize : ℕ := nvramKeySize * nvramKeys

def writeFields (flash : ℕ → UInt8) : ℕ → List (List UInt8) → ℕ → UInt8
  | _, [] => flash
  | written, field :: rest =>
      writeFields (zbWriteNvram flash (UInt8.ofNat (configPage + written)) field)
        (written + field.length) rest

def readFields (flash : ℕ → UInt8) : ℕ → List ℕ → List (List UInt8)
  | _, [] => []
  | readBytes, size :: rest =>
      zbReadNvram flash (UInt8.ofNat (configPage + readBytes)) size ::
        readFields flash (readBytes + size) rest

def IeeeAddr.ofBytes : List UInt8 → Option IeeeAddr
  | [a0, a1, a2, a3, a4, a5, a6, a7] => some ⟨⟨a0, a1, a2⟩, ⟨a3, a4, a5, a6, a7⟩⟩
  | _ => none

/-! ### Configuration -/

structure NvramConfig where
  apsDesignatedCoord : UInt8
  apsUseInsecureJoin : UInt8
  apsUseExtendedPanId : UInt8
  macExtendedAddress : IeeeAddr

/-- `zb_test_nvram`, with `RET_OK` as `true`: the segment is blank. -/
def zbTestNvram (flash : ℕ → UInt8) (pos : UInt8) (len : ℕ) :
    Bool × List UInt8 :=
  let buf := zbReadNvram flash pos len
  (buf.foldl (fun tmp byte => tmp ||| ~~~byte) 0 = 0, buf)

def NvramConfig.flags (config : NvramConfig) : UInt8 :=
  config.apsDesignatedCoord ||| config.apsUseInsecureJoin <<< 1 |||
    config.apsUseExtendedPanId <<< 2

def zbWriteNvramConfig (flash : ℕ → UInt8) (config : NvramConfig) :
    ℕ → UInt8 :=
  let pos := UInt8.ofNat (configPage + configSize)
  let (nvramSave, tmpBuf) := zbTestNvram flash pos (scratchpadPageSize - configSize)
  let flash := writeFields (zbEraseNvram flash 0) 0
    [[config.flags], config.macExtendedAddress.toBytes]
  if nvramSave then flash else zbWriteNvram flash pos tmpBuf

/-- What `zb_config_from_nvram` restores: the flag for extended PAN ids is left
out. -/
structure ConfigRead where
  apsDesignatedCoordinator : UInt8
  apsInsecureJoin : UInt8
  apsUseExtendedPanId : Option UInt8
  macExtendedAddress : Option IeeeAddr

def zbConfigFromNvram (flash : ℕ → UInt8) : ConfigRead :=
  let fields := readFields flash 0 [1, 8]
  let flags := (fields.getD 0 []).getD 0 0
  { apsDesignatedCoordinator := flags &&& 0x01
    apsInsecureJoin := flags &&& 0x02
    apsUseExtendedPanId := none
    macExtendedAddress := IeeeAddr.ofBytes (fields.getD 1 []) }

/-! ### The network which was formed or joined -/

structure Formdesc where
  profileInUse : UInt8
  longParentAddr : IeeeAddr
  apsChannelMask : UInt32
  shortParentAddr : UInt16
  depth : UInt8
  panId : UInt16
  extPanId : IeeeAddr
  nwkShortAddr : UInt16

def formdescSizes : List ℕ := [1, 8, 4, 2, 1, 2, 8, 2]

def Formdesc.fields (order : ByteOrder) (data : Formdesc) :
    List (List UInt8) :=
  [[data.profileInUse], data.longParentAddr.toBytes,
    order.bytes 4 data.apsChannelMask.toNat,
    order.bytes 2 data.shortParentAddr.toNat, [data.depth],
    order.bytes 2 data.panId.toNat, data.extPanId.toBytes,
    order.bytes 2 data.nwkShortAddr.toNat]

/-- `zb_nvram_save` is the size of the keys, which is not 0. -/
def zbWriteFormdescData
    (order : ByteOrder) (flash : ℕ → UInt8) (data : Formdesc) : ℕ → UInt8 :=
  let posKeys := UInt8.ofNat (configPage + scratchpadPageSize - keySectionSize)
  let tmpBufConfig := zbReadNvram flash (UInt8.ofNat configPage) configSize
  let tmpBufKeys := zbReadNvram flash posKeys keySectionSize
  let flash := writeFields flash configSize (data.fields order)
  let flash := zbWriteNvram flash (UInt8.ofNat configPage) tmpBufConfig
  zbWriteNvram flash posKeys tmpBufKeys

/-- What `zb_read_formdesc_data` restores: the profile is read and left out -/
structure FormdescRead where
  profileInUse : Option UInt8
  longParentAddr : Option IeeeAddr
  apsChannelMask : UInt32
  shortParentAddr : UInt16
  depth : UInt8
  panId : UInt16
  extPanId : Option IeeeAddr
  nwkShortAddr : UInt16

def zbReadFormdescData (order : ByteOrder) (flash : ℕ → UInt8) :
    Option FormdescRead :=
  let fields := readFields flash configSize formdescSizes
  let parentAddr := fields.getD 1 []
  if parentAddr.foldl (· &&& ·) 0xFF ≠ 0xFF then
    some {
      profileInUse := none
      longParentAddr := IeeeAddr.ofBytes parentAddr
      apsChannelMask := UInt32.ofNat (order.ofBytes (fields.getD 2 []))
      shortParentAddr := UInt16.ofNat (order.ofBytes (fields.getD 3 []))
      depth := (fields.getD 4 []).getD 0 0
      panId := UInt16.ofNat (order.ofBytes (fields.getD 5 []))
      extPanId := IeeeAddr.ofBytes (fields.getD 6 [])
      nwkShortAddr := UInt16.ofNat (order.ofBytes (fields.getD 7 [])) }
  else none

/-! ### Keys -/

def keyPos (i : ℕ) : UInt8 :=
  UInt8.ofNat (configPage + scratchpadPageSize - nvramKeySize * (nvramKeys - i))

def zbWriteSecurityKey (flash : ℕ → UInt8) (keys : Fin 3 → CcmKey) :
    ℕ → UInt8 :=
  let tmpBuf := zbReadNvram flash (UInt8.ofNat configPage)
    (scratchpadPageSize - keySectionSize)
  let flash := (List.finRange 3).foldl
    (fun flash (i : Fin 3) => zbWriteNvram flash (keyPos i) (keys i).toList)
    (zbEraseNvram flash configPage)
  zbWriteNvram flash (UInt8.ofNat configPage) tmpBuf

def zbReadSecurityKey (flash : ℕ → UInt8) : Fin 3 → List UInt8 :=
  fun i => zbReadNvram flash (keyPos i) nvramKeySize

end Zboss
