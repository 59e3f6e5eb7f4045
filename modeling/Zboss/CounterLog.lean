import Zboss.Nvram
import Zboss.TransitionSystem

/-!
# The log of frame counters

Frame counters are written one behind the other, and the place of the last one
is where the last byte is which is not blank.  This is right as long as the
last byte of a counter is not `0xFF`, or the last but two for the counter which
fills the page.
-/

namespace Zboss

open Option List FlashMemory TransitionSystem

section WriteSearch

variable {buf : ℕ → UInt8} {i j n : ℕ}

theorem writeSearch_of_ne (hcell : buf i ≠ 0xFF) (hi : i < scratchpadPageSize) :
    (writeSearch buf i).1 = i := by
  cases i with
  | zero => rfl
  | succ i => rw [writeSearch, if_pos ⟨hcell, hi⟩]

theorem writeSearch_succ_of_eq (hcell : i + 1 < scratchpadPageSize → buf (i + 1) = 0xFF) :
    writeSearch buf (i + 1) =
      ((writeSearch buf i).1, (i + 1) :: (writeSearch buf i).2) := by
  rw [writeSearch, if_neg fun h => h.1 (hcell h.2)]

theorem writeSearch_eq (hin : i ≤ n) (hi : i < scratchpadPageSize)
    (hcell : i = 0 ∨ buf i ≠ 0xFF)
    (hblank : ∀ j, i < j → j < scratchpadPageSize → buf j = 0xFF) :
    (writeSearch buf n).1 = i := by
  induction n with
  | zero =>
    rw [Nat.le_zero.mp hin]
    rfl
  | succ n ih =>
    rcases Nat.lt_or_eq_of_le hin with hlt | rfl
    · rw [writeSearch_succ_of_eq (hblank (n + 1) hlt)]
      exact ih (Nat.le_of_lt_succ hlt)
    · exact writeSearch_of_ne (hcell.resolve_left (Nat.succ_ne_zero n)) hi

theorem writeSearch_lt (hn : n ≤ scratchpadPageSize) :
    (writeSearch buf n).1 < scratchpadPageSize := by
  induction n with
  | zero => exact Nat.zero_lt_succ 127
  | succ n ih =>
    rw [writeSearch]
    split
    case isTrue hfound => exact hfound.2
    case isFalse => exact ih (Nat.le_of_succ_le hn)

theorem writeSearch_found (buf : ℕ → UInt8) (n : ℕ) :
    (writeSearch buf n).1 = 0 ∨ buf (writeSearch buf n).1 ≠ 0xFF := by
  induction n with
  | zero => exact .inl rfl
  | succ n ih =>
    rw [writeSearch]
    split
    case isTrue hfound => exact .inr hfound.1
    case isFalse => exact ih

theorem examined_le (hj : j ∈ (writeSearch buf n).2) : j ≤ n := by
  induction n with
  | zero => exact Nat.le_of_eq (mem_singleton.mp hj)
  | succ n ih =>
    rw [writeSearch] at hj
    split at hj
    case isTrue => exact Nat.le_of_eq (mem_singleton.mp hj)
    case isFalse =>
      rcases mem_cons.mp hj with rfl | hrest
      · exact Nat.le_refl _
      · exact Nat.le_succ_of_le (ih hrest)

theorem mem_examined : n ∈ (writeSearch buf n).2 := by
  cases n with
  | zero => exact mem_singleton_self 0
  | succ n =>
    rw [writeSearch]
    split
    case isTrue => exact mem_singleton_self _
    case isFalse => exact mem_cons_self

end WriteSearch

section ReadSearch

variable {buf : ℕ → UInt8} {fuel : ℕ} {i : UInt8}

theorem readSearch_eq {k : UInt8} (hk : 3 < k) (hcell : buf k.toNat ≠ 0xFF)
    (hki : k.toNat ≤ i.toNat) (hfuel : i.toNat < k.toNat + fuel)
    (hblank : ∀ j, k.toNat < j → j ≤ i.toNat → buf j = 0xFF) :
    (readSearch buf fuel i).1 = some k ∧ ∀ j ∈ (readSearch buf fuel i).2, j ≤ i.toNat := by
  induction fuel generalizing i with
  | zero => omega
  | succ fuel ih =>
    rw [readSearch]
    rcases Nat.lt_or_eq_of_le hki with hlt | heq
    · have hprev : (i - 1).toNat = i.toNat - 1 := by
        rw [UInt8.toNat_sub_of_le _ _ (UInt8.le_iff_toNat_le.mpr ?_)]
        · rfl
        · exact Nat.one_le_of_lt hlt
      rw [if_neg fun h => h.1 (hblank i.toNat hlt (Nat.le_refl _))]
      obtain ⟨hfound, hexamined⟩ := ih (i := i - 1) (by omega) (by omega)
        fun j hkj hji => hblank j hkj (by omega)
      refine ⟨hfound, ?_⟩
      intro j hj
      rcases mem_cons.mp hj with rfl | hrest
      · exact Nat.le_refl _
      · exact Nat.le_trans (hexamined j hrest) (by omega)
    · obtain rfl : k = i := UInt8.toNat_inj.mp heq
      rw [if_pos ⟨hcell, hk⟩]
      refine ⟨rfl, ?_⟩
      intro j hj
      exact Nat.le_of_eq (mem_singleton.mp hj)

theorem mem_examined_of_blank (hfuel : i.toNat + 1 < fuel)
    (hblank : ∀ j, 3 < j → j ≤ i.toNat → buf j = 0xFF) :
    255 ∈ (readSearch buf fuel i).2 := by
  induction fuel generalizing i with
  | zero => omega
  | succ fuel ih =>
    have hstep : ¬(buf i.toNat ≠ 0xFF ∧ 3 < i) := fun h =>
      h.1 (hblank i.toNat (UInt8.lt_iff_toNat_lt.mp h.2) (Nat.le_refl _))
    rw [readSearch, if_neg hstep]
    apply mem_cons_of_mem
    by_cases hi : i = 0
    · subst hi
      obtain ⟨fuel, rfl⟩ : ∃ rest, fuel = rest + 1 :=
        Nat.exists_eq_succ_of_ne_zero (by omega)
      rw [readSearch]
      split
      case isTrue => exact mem_singleton_self 255
      case isFalse => exact mem_cons_self
    · have hpos : i.toNat ≠ 0 := fun h => hi (UInt8.toNat_inj.mp h)
      have hprev : (i - 1).toNat = i.toNat - 1 := by
        rw [UInt8.toNat_sub_of_le _ _ (UInt8.le_iff_toNat_le.mpr ?_)]
        · rfl
        · exact Nat.one_le_iff_ne_zero.mpr hpos
      exact ih (by omega) fun j hj hji => hblank j hj (by omega)

theorem readSearch_found {k : UInt8} (hfound : (readSearch buf fuel i).1 = some k) :
    buf k.toNat ≠ 0xFF ∧ 3 < k := by
  induction fuel generalizing i with
  | zero => exact absurd hfound (some_ne_none k).symm
  | succ fuel ih =>
    rw [readSearch] at hfound
    split at hfound
    case isTrue hstop =>
      obtain rfl := some.inj hfound
      exact hstop
    case isFalse => exact ih hfound

end ReadSearch

def programmedCells : Technology Bool where
  meld old new := old || new
  blank := false
  blank_meld := Bool.false_or
  meld_self := Bool.or_self

structure CounterLog where
  flash : ℕ → UInt8
  programmed : ℕ → Bool
  written : List UInt32

/-- `stack` is what lies behind the buffer of the function. -/
inductive CounterCall where
  | writeUpCounter (outgoingFrameCounter : UInt32) (stack : ℕ → UInt8)
  | readUpCounter (stack : ℕ → UInt8)

namespace CounterLog

def cells (order : ByteOrder) (counter : UInt32) : List UInt8 :=
  order.bytes 4 counter.toNat

def start (flash : ℕ → UInt8) (programmed : ℕ → Bool) : CounterLog where
  flash := zbEraseNvram flash 1
  programmed := erase programmedCells programmed volatilePage scratchpadPageSize
  written := []

def atWrite (log : CounterLog) (write : UpCounterWrite) : ℕ → Bool :=
  if write.erased then erase programmedCells log.programmed volatilePage scratchpadPageSize
  else log.programmed

def step (order : ByteOrder) (log : CounterLog) : CounterCall → Option CounterLog
  | .writeUpCounter counter stack =>
      let write := zbWriteUpCounter log.flash stack (cells order counter)
      some {
        flash := write.flash
        programmed :=
          program programmedCells (log.atWrite write) write.pos.toNat
            (List.replicate 4 true)
        written := log.written ++ [counter] }
  | .readUpCounter _ => some log

/-- The buffer is read below `limit` only; a counter is written to cells of the
page which are not programmed, and the last one is restored. -/
def Sound (order : ByteOrder) (limit : ℕ) (log : CounterLog) : CounterCall → Prop
  | .writeUpCounter counter stack =>
      let write := zbWriteUpCounter log.flash stack (cells order counter)
      (∀ i ∈ write.examined, i < limit) ∧ ∀ k < 4, volatilePage ≤ write.pos.toNat + k ∧
          write.pos.toNat + k < volatilePage + scratchpadPageSize ∧
          log.atWrite write (write.pos.toNat + k) = false
  | .readUpCounter stack =>
      let (restored, examined) := zbReadUpCounter order log.flash stack
      (∀ i ∈ examined, i < limit) ∧ restored.isSome ∧
        ∀ counter ∈ log.written.getLast?, restored = some counter

/-- The last byte of the last counter is not blank, or the last but two when
this counter has filled the page; a counter which was written first to the page
cannot be restored. -/
def Keeps (order : ByteOrder) (log : CounterLog) : CounterCall → Prop
  | .writeUpCounter _ _ =>
      ∀ counter ∈ log.written.getLast?,
        order.byte 4 counter.toNat (if 32 ∣ log.written.length then 1 else 3) ≠
          0xFF
  | .readUpCounter _ =>
      log.written ≠ [] ∧ log.written.length % 32 ≠ 1 ∧ ∀ counter ∈ log.written.getLast?,
          order.byte 4 counter.toNat 3 ≠ 0xFF

def onPage (count : ℕ) : ℕ :=
  if count = 0 then 0 else (count - 1) % 32 + 1

structure Filled (order : ByteOrder) (log : CounterLog) : Prop where
  last : ∀ counter ∈ log.written.getLast?, ∀ k < 4,
    log.flash (volatilePage + 4 * (onPage log.written.length - 1) + k) =
      order.byte 4 counter.toNat k
  blank : ∀ x, volatilePage + 4 * onPage log.written.length ≤ x →
    x < volatilePage + scratchpadPageSize → log.flash x = 0xFF
  programmed : ∀ x, volatilePage ≤ x → x < volatilePage + scratchpadPageSize →
    (log.programmed x = true ↔ x < volatilePage + 4 * onPage log.written.length)

variable {order : ByteOrder} {log : CounterLog} {counter : UInt32} {stack : ℕ → UInt8}

theorem onPage_le (count : ℕ) : onPage count ≤ 32 := by
  unfold onPage
  split <;> omega

theorem onPage_succ (count : ℕ) : onPage (count + 1) = count % 32 + 1 := by
  rw [onPage, if_neg (Nat.succ_ne_zero count), Nat.add_sub_cancel]

theorem onPage_of_dvd {count : ℕ} (hcount : count ≠ 0) (hfull : 32 ∣ count) :
    onPage count = 32 := by
  rw [onPage, if_neg hcount]
  omega

theorem onPage_of_not_dvd {count : ℕ} (hfree : count = 0 ∨ ¬32 ∣ count) :
    onPage count = count % 32 := by
  unfold onPage
  split <;> omega

theorem onPage_pos {count : ℕ} (hcount : count ≠ 0) : 0 < onPage count := by
  rw [onPage, if_neg hcount]
  exact Nat.succ_pos _

theorem length_ne_zero (hlast : counter ∈ log.written.getLast?) :
    log.written.length ≠ 0 := by
  intro hzero
  rw [length_eq_zero_iff.mp hzero] at hlast
  exact not_mem_none _ hlast

namespace Filled

section

variable (hfilled : log.Filled order)

include hfilled

theorem buf_blank {i : ℕ}
    (hfrom : 4 * onPage log.written.length ≤ i) (hto : i < scratchpadPageSize) :
    pageBuf log.flash stack i = 0xFF := by
  rw [pageBuf, if_pos hto]
  apply hfilled.blank
  · exact Nat.add_le_add_left hfrom _
  · exact Nat.add_lt_add_left hto _

theorem buf_last {k : ℕ} (stack : ℕ → UInt8)
    (hlast : counter ∈ log.written.getLast?) (hk : k < 4) :
    pageBuf log.flash stack (4 * (onPage log.written.length - 1) + k) =
      order.byte 4 counter.toNat k := by
  have hpage := onPage_le log.written.length
  have hpos := onPage_pos (length_ne_zero hlast)
  rw [pageBuf, if_pos (by rw [scratchpadPageSize]; omega), ← Nat.add_assoc]
  exact hfilled.last counter hlast k hk

theorem buf_full (stack : ℕ → UInt8)
    (hlast : counter ∈ log.written.getLast?) (hfull : 32 ∣ log.written.length) :
    pageBuf log.flash stack 125 = order.byte 4 counter.toNat 1 := by
  have h := hfilled.buf_last stack hlast (by decide : 1 < 4)
  rwa [onPage_of_dvd (length_ne_zero hlast) hfull] at h

theorem buf_free (hfree : log.written.length = 0 ∨ ¬32 ∣ log.written.length) :
    pageBuf log.flash stack 125 = 0xFF := by
  apply hfilled.buf_blank
  · rw [onPage_of_not_dvd hfree]
    omega
  · decide

end

end Filled

structure BlankFrom (flash : ℕ → UInt8) (programmed : ℕ → Bool) (pos : ℕ) : Prop where
  blank : ∀ x, pos ≤ x → x < volatilePage + scratchpadPageSize → flash x = 0xFF
  programmed : ∀ x, volatilePage ≤ x → x < volatilePage + scratchpadPageSize →
    (programmed x = true ↔ x < pos)

theorem BlankFrom.filled
    {flash : ℕ → UInt8} {programmed : ℕ → Bool} {written : List UInt32}
    (hblank : BlankFrom flash programmed (volatilePage + 4 * (written.length % 32)))
    (counter : UInt32) :
    Filled order {
      flash := program scratchpad flash
        (volatilePage + 4 * (written.length % 32)) (cells order counter)
      programmed := program programmedCells programmed
        (volatilePage + 4 * (written.length % 32)) (List.replicate 4 true)
      written := written ++ [counter] } := by
  have hlength : (cells order counter).length = 4 := order.length_bytes 4 _
  have hcount : onPage (written ++ [counter]).length = written.length % 32 + 1 := by
    rw [length_append, length_singleton, onPage_succ]
  have hmod : written.length % 32 < 32 := Nat.mod_lt _ (by decide)
  refine ⟨?_, ?_, ?_⟩
  · intro last hlast k hk
    rw [List.getLast?_concat, Option.mem_some_iff] at hlast
    subst hlast
    rw [hcount, Nat.add_sub_cancel]
    have hk' : k < (cells order counter).length := by rwa [hlength]
    refine (program_of_mem hk').trans ?_
    rw [hblank.blank _ (Nat.le_add_right _ _)
      (by rw [volatilePage, scratchpadPageSize]; omega)]
    rw [show (0xFF : UInt8) = scratchpad.blank from rfl, scratchpad.blank_meld]
    exact order.getElem_bytes hk'
  · intro x hfrom hto
    rw [hcount] at hfrom
    refine (program_of_not_mem (.inr ?_)).trans (hblank.blank x ?_ hto)
    · omega
    · omega
  · intro x hfrom hto
    rw [hcount]
    by_cases hx : volatilePage + 4 * (written.length % 32) ≤ x ∧
        x < volatilePage + 4 * (written.length % 32) + 4
    · obtain ⟨k, rfl⟩ := Nat.exists_eq_add_of_le hx.1
      have hk : k < (List.replicate 4 true).length := by
        rw [length_replicate]
        omega
      refine iff_of_true ?_ (by omega)
      refine (program_of_mem hk).trans ?_
      rw [getElem_replicate]
      exact Bool.or_true _
    · have hout : x < volatilePage + 4 * (written.length % 32) ∨
          volatilePage + 4 * (written.length % 32) +
            (List.replicate 4 true).length ≤ x := by
        rw [length_replicate]
        omega
      refine Iff.trans (iff_of_eq (congrArg (· = true)
        (program_of_not_mem hout))) ((hblank.programmed x hfrom hto).trans ?_)
      omega

structure NextCells (log : CounterLog) (write : UpCounterWrite)
    (counter : List UInt8) : Prop where
  examined : ∀ i ∈ write.examined, i < scratchpadPageSize + 1
  pos_eq : write.pos.toNat = volatilePage + 4 * (log.written.length % 32)
  blank : ∃ base, write.flash = program scratchpad base write.pos.toNat counter ∧
      BlankFrom base (log.atWrite write) write.pos.toNat

theorem Filled.blankFrom (hfilled : log.Filled order)
    (hfree : log.written.length = 0 ∨ ¬32 ∣ log.written.length) :
    BlankFrom log.flash log.programmed (volatilePage + 4 * (log.written.length % 32)) := by
  rw [← onPage_of_not_dvd hfree]
  exact ⟨hfilled.blank, hfilled.programmed⟩

theorem blankFrom_erase (flash : ℕ → UInt8) (programmed : ℕ → Bool) :
    BlankFrom (zbEraseNvram flash 1)
      (erase programmedCells programmed volatilePage scratchpadPageSize)
      volatilePage := by
  constructor
  · intro x hfrom hto
    exact erase_of_mem hfrom hto
  · intro x hfrom hto
    rw [erase_of_mem hfrom hto]
    exact iff_of_false Bool.false_ne_true (Nat.not_lt.mpr hfrom)

theorem Filled.writeSearch_eq (hfilled : log.Filled order) (stack : ℕ → UInt8)
    (hfree : log.written.length = 0 ∨ ¬32 ∣ log.written.length)
    (hlast : ∀ counter ∈ log.written.getLast?, order.byte 4 counter.toNat 3 ≠ 0xFF) :
    (writeSearch (pageBuf log.flash stack) scratchpadPageSize).1 =
      4 * (log.written.length % 32) - 1 := by
  have hpage := onPage_of_not_dvd hfree
  have hmod : log.written.length % 32 < 32 := Nat.mod_lt _ (by decide)
  apply Zboss.writeSearch_eq
  · rw [scratchpadPageSize]
    omega
  · rw [scratchpadPageSize]
    omega
  · rcases eq_nil_or_concat log.written with hnil | ⟨rest, counter, hconcat⟩
    · left
      rw [hnil]
      rfl
    · right
      have hmem : counter ∈ log.written.getLast? := by
        rw [hconcat, concat_eq_append, List.getLast?_concat]
        exact Option.mem_some_self counter
      have hcell := hfilled.buf_last stack hmem (by decide : 3 < 4)
      have hpos := onPage_pos (length_ne_zero hmem)
      rw [hpage] at hcell hpos
      rw [show 4 * (log.written.length % 32) - 1 =
        4 * (log.written.length % 32 - 1) + 3 by omega, hcell]
      exact hlast counter hmem
  · intro j hfrom hto
    apply hfilled.buf_blank _ hto
    rw [hpage]
    omega

theorem zbWriteUpCounter_eq {flash : ℕ → UInt8} {counter : List UInt8}
    (hfree : pageBuf flash stack 125 = 0xFF) {i : ℕ}
    (hfound : (writeSearch (pageBuf flash stack) scratchpadPageSize).1 = i) :
    zbWriteUpCounter flash stack counter =
      { flash := zbWriteNvram flash (UInt8.ofNat (volatilePage + i + i % 2)) counter
        pos := UInt8.ofNat (volatilePage + i + i % 2)
        erased := false
        examined := 125 :: (writeSearch (pageBuf flash stack) scratchpadPageSize).2 } := by
  subst hfound
  rw [zbWriteUpCounter, if_neg (by simpa [scratchpadPageSize] using hfree)]
  rfl

theorem zbWriteUpCounter_full {flash : ℕ → UInt8} {counter : List UInt8}
    (hfull : pageBuf flash stack 125 ≠ 0xFF) :
    zbWriteUpCounter flash stack counter =
      { flash := zbWriteNvram (zbEraseNvram flash 1) (UInt8.ofNat volatilePage) counter
        pos := UInt8.ofNat volatilePage
        erased := true
        examined := [125] } := by
  rw [zbWriteUpCounter, if_pos (by simpa [scratchpadPageSize] using hfull)]
  rfl

theorem Filled.nextCells (hfilled : log.Filled order)
    (hkeeps : log.Keeps order (.writeUpCounter counter stack)) :
    log.NextCells (zbWriteUpCounter log.flash stack (cells order counter))
      (cells order counter) := by
  by_cases hfree : log.written.length = 0 ∨ ¬32 ∣ log.written.length
  · have hfound := hfilled.writeSearch_eq stack hfree (by
      intro last hlast
      have := hkeeps last hlast
      rwa [if_neg (hfree.resolve_left (length_ne_zero hlast))] at this)
    have hmod : log.written.length % 32 < 32 := Nat.mod_lt _ (by decide)
    have hpos : volatilePage + (4 * (log.written.length % 32) - 1) +
        (4 * (log.written.length % 32) - 1) % 2 =
          volatilePage + 4 * (log.written.length % 32) := by
      omega
    have hnat : (UInt8.ofNat (volatilePage + 4 * (log.written.length % 32))).toNat =
          volatilePage + 4 * (log.written.length % 32) := by
      rw [UInt8.toNat_ofNat', volatilePage]
      omega
    rw [zbWriteUpCounter_eq (hfilled.buf_free hfree) hfound, hpos]
    refine ⟨?_, hnat, log.flash, rfl, ?_⟩
    · intro i hi
      rcases mem_cons.mp hi with rfl | hsearch
      · decide
      · exact Nat.lt_succ_of_le (examined_le hsearch)
    · rw [hnat]
      exact hfilled.blankFrom hfree
  · rw [not_or, not_not] at hfree
    obtain ⟨last, hlast⟩ : ∃ last, last ∈ log.written.getLast? := by
      refine ⟨log.written.getLast ?_, List.getLast?_eq_some_getLast _⟩
      exact ne_nil_of_length_pos (Nat.pos_of_ne_zero hfree.1)
    have hcell := hkeeps last hlast
    rw [if_pos hfree.2, ← hfilled.buf_full stack hlast hfree.2] at hcell
    rw [zbWriteUpCounter_full hcell]
    refine ⟨?_, ?_, zbEraseNvram log.flash 1, rfl, ?_⟩
    · intro i hi
      rw [mem_singleton.mp hi]
      decide
    · rw [Nat.mod_eq_zero_of_dvd hfree.2]
      rfl
    · exact blankFrom_erase log.flash log.programmed

theorem NextCells.sound (hnext : log.NextCells
      (zbWriteUpCounter log.flash stack (cells order counter))
      (cells order counter)) :
    log.Sound order (scratchpadPageSize + 1) (.writeUpCounter counter stack) := by
  obtain ⟨base, _, hblank⟩ := hnext.blank
  have hmod : log.written.length % 32 < 32 := Nat.mod_lt _ (by decide)
  refine ⟨hnext.examined, ?_⟩
  intro k hk
  have hpos := hnext.pos_eq
  have hfrom : volatilePage ≤
      (zbWriteUpCounter log.flash stack (cells order counter)).pos.toNat + k := by
    omega
  have hto : (zbWriteUpCounter log.flash stack (cells order counter)).pos.toNat + k <
        volatilePage + scratchpadPageSize := by
    rw [scratchpadPageSize]
    omega
  refine ⟨hfrom, hto, Bool.eq_false_iff.mpr ?_⟩
  intro hprogrammed
  exact Nat.not_lt.mpr (Nat.le_add_right _ k)
    ((hblank.programmed _ hfrom hto).mp hprogrammed)

theorem Filled.step {next : CounterLog} {call : CounterCall}
    (hfilled : log.Filled order) (hkeeps : log.Keeps order call)
    (hstep : step order log call = some next) : next.Filled order := by
  cases call with
  | writeUpCounter counter stack =>
    obtain ⟨_, hpos, base, hflash, hblank⟩ := hfilled.nextCells hkeeps
    rw [hpos] at hflash hblank
    rw [← some.inj hstep]
    simp only [hflash, hpos]
    exact hblank.filled counter
  | readUpCounter stack => exact some.inj hstep ▸ hfilled

theorem Filled.keeps_write (hfilled : log.Filled order) {limit : ℕ}
    (hsound : log.Sound order limit (.writeUpCounter counter stack)) :
    log.Keeps order (.writeUpCounter counter stack) := by
  intro last hlast hbyte
  have hcount := length_ne_zero hlast
  have hfree : pageBuf log.flash stack 125 = 0xFF := by
    by_cases hfull : 32 ∣ log.written.length
    · rw [if_pos hfull] at hbyte
      rw [hfilled.buf_full stack hlast hfull, hbyte]
    · exact hfilled.buf_free (.inr hfull)
  have hi : (writeSearch (pageBuf log.flash stack) scratchpadPageSize).1 <
      scratchpadPageSize := writeSearch_lt (Nat.le_refl _)
  have hfound := writeSearch_found (pageBuf log.flash stack) scratchpadPageSize
  generalize hsearch : (writeSearch (pageBuf log.flash stack) scratchpadPageSize).1 = i
    at hi hfound
  obtain ⟨_, hcells⟩ := hsound
  rw [zbWriteUpCounter_eq hfree hsearch] at hcells
  obtain ⟨hfrom, hto, hunused⟩ := hcells 0 (by decide)
  rw [Nat.add_zero] at hfrom hto hunused
  dsimp only at hfrom hto hunused
  have hused : ¬(UInt8.ofNat (volatilePage + i + i % 2)).toNat <
      volatilePage + 4 * onPage log.written.length := by
    rw [← hfilled.programmed _ hfrom hto]
    exact Bool.eq_false_iff.mp hunused
  have hpos := onPage_pos hcount
  have hbelow : i < 4 * onPage log.written.length := by
    by_contra hbehind
    rcases hfound with hzero | hcell
    · omega
    · exact hcell (hfilled.buf_blank (Nat.le_of_not_lt hbehind) hi)
  rw [UInt8.toNat_ofNat', volatilePage] at hused hfrom
  -- only the last byte of the last counter leads behind the counter
  have hlastByte : i = 4 * (onPage log.written.length - 1) + 3 := by omega
  by_cases hfull : 32 ∣ log.written.length
  · rw [onPage_of_dvd hcount hfull] at hlastByte
    rw [hlastByte] at hfrom
    exact absurd hfrom (by decide)
  · rw [if_neg hfull] at hbyte
    rw [hlastByte, hfilled.buf_last _ hlast (by decide)] at hfound
    exact hfound.resolve_left (Nat.succ_ne_zero _) hbyte

theorem Filled.sound_write_iff (hfilled : log.Filled order) :
    log.Sound order (scratchpadPageSize + 1) (.writeUpCounter counter stack) ↔
      log.Keeps order (.writeUpCounter counter stack) :=
  ⟨hfilled.keeps_write, fun hkeeps => (hfilled.nextCells hkeeps).sound⟩

theorem toNat_ofNat_ofBytes {cells : List UInt8} (hlength : cells.length = 4) :
    (UInt32.ofNat (order.ofBytes cells)).toNat = order.ofBytes cells := by
  rw [UInt32.toNat_ofNat']
  exact Nat.mod_eq_of_lt (order.ofBytes_lt hlength)

theorem zbReadUpCounter_eq (flash : ℕ → UInt8) : zbReadUpCounter order flash stack =
      ((readSearch (pageBuf flash stack) 256 127).1.map fun i =>
        UInt32.ofNat (order.ofBytes (read (pageBuf flash stack) (i.toNat - 3) 4)),
        (readSearch (pageBuf flash stack) 256 127).2) := rfl

theorem byte_of_restored {flash : ℕ → UInt8}
    (hrestored : (zbReadUpCounter order flash stack).1 = some counter) :
    order.byte 4 counter.toNat 3 ≠ 0xFF := by
  rw [zbReadUpCounter_eq, map_eq_some_iff] at hrestored
  obtain ⟨i, hsearch, rfl⟩ := hrestored
  obtain ⟨hcell, hi⟩ := readSearch_found hsearch
  have hle : 3 ≤ i.toNat := Nat.le_of_lt (UInt8.lt_iff_toNat_lt.mp hi)
  have hlength := length_read (pageBuf flash stack) (i.toNat - 3) 4
  rw [toNat_ofNat_ofBytes hlength]
  have hbytes := order.bytes_ofBytes hlength
  have hthree : 3 < (order.bytes 4
      (order.ofBytes (read (pageBuf flash stack) (i.toNat - 3) 4))).length := by
    rw [ByteOrder.length_bytes]
    decide
  rw [← order.getElem_bytes hthree, getElem_of_eq hbytes, getElem_read,
    Nat.sub_add_cancel hle]
  exact hcell

theorem Filled.restores (hfilled : log.Filled order)
    (hkeeps : log.Keeps order (.readUpCounter stack)) :
    log.Sound order (scratchpadPageSize + 1) (.readUpCounter stack) := by
  obtain ⟨hnonempty, hsecond, hbyte⟩ := hkeeps
  obtain ⟨last, hlast⟩ : ∃ last, last ∈ log.written.getLast? :=
    ⟨log.written.getLast hnonempty, List.getLast?_eq_some_getLast hnonempty⟩
  have hcount := length_ne_zero hlast
  have hpage := onPage_le log.written.length
  have htwo : 2 ≤ onPage log.written.length := by
    rw [onPage, if_neg hcount]
    omega
  have hnat : (UInt8.ofNat (4 * onPage log.written.length - 1)).toNat =
      4 * (onPage log.written.length - 1) + 3 := by
    rw [UInt8.toNat_ofNat']
    omega
  have hcell := hfilled.buf_last stack hlast (by decide : 3 < 4)
  have hthree : 3 < UInt8.ofNat (4 * onPage log.written.length - 1) := by
    rw [UInt8.lt_iff_toNat_lt, hnat]
    change 3 < _
    omega
  obtain ⟨hfound, hexamined⟩ : (readSearch (pageBuf log.flash stack) 256 127).1 =
        some (UInt8.ofNat (4 * onPage log.written.length - 1)) ∧
      ∀ j ∈ (readSearch (pageBuf log.flash stack) 256 127).2, j ≤ 127 := by
    apply readSearch_eq hthree
    · rw [hnat, hcell]
      exact hbyte last hlast
    · rw [hnat]
      change _ ≤ 127
      omega
    · rw [hnat]
      change 127 < _
      omega
    · intro j hfrom hto
      rw [hnat] at hfrom
      exact hfilled.buf_blank (by omega) (Nat.lt_succ_of_le hto)
  have hbytes : read (pageBuf log.flash stack)
      (4 * (onPage log.written.length - 1)) 4 = order.bytes 4 last.toNat := by
    rw [read_eq_iff (order.length_bytes 4 _)]
    intro k hk
    rw [order.getElem_bytes]
    exact hfilled.buf_last _ hlast (by rwa [order.length_bytes] at hk)
  rw [Sound, zbReadUpCounter_eq, hfound]
  refine ⟨fun i hi => Nat.lt_succ_of_le (Nat.le_succ_of_le (hexamined i hi)), rfl, ?_⟩
  intro counter hcounter
  obtain rfl := Option.mem_unique hlast hcounter
  rw [map_some, hnat, Nat.add_sub_cancel, hbytes,
    order.ofBytes_bytes (UInt32.toNat_lt last), UInt32.ofNat_toNat]

theorem Filled.keeps_restart (hfilled : log.Filled order)
    (hsound : log.Sound order (scratchpadPageSize + 1) (.readUpCounter stack)) :
    log.Keeps order (.readUpCounter stack) := by
  obtain ⟨hexamined, hsome, hrestored⟩ := hsound
  have hpages : 2 ≤ onPage log.written.length := by
    by_contra hfew
    have hwrap : 255 ∈ (readSearch (pageBuf log.flash stack) 256 127).2 := by
      apply mem_examined_of_blank (by decide)
      intro j hfrom hto
      exact hfilled.buf_blank (by omega) (Nat.lt_succ_of_le hto)
    exact absurd (hexamined 255 hwrap) (by decide)
  refine ⟨?_, ?_, ?_⟩
  · intro hnil
    rw [hnil] at hpages
    exact absurd hpages (by decide)
  · intro hone
    unfold onPage at hpages
    split at hpages <;> omega
  · intro counter hcounter
    exact byte_of_restored (hrestored counter hcounter)

theorem Filled.sound_iff (hfilled : log.Filled order) (call : CounterCall) :
    log.Sound order (scratchpadPageSize + 1) call ↔ log.Keeps order call := by
  cases call with
  | writeUpCounter counter stack => exact hfilled.sound_write_iff
  | readUpCounter stack => exact ⟨hfilled.keeps_restart, hfilled.restores⟩

theorem filled_start (flash : ℕ → UInt8) (programmed : ℕ → Bool) :
    (start flash programmed).Filled order where
  last counter hcounter := absurd hcounter (not_mem_none counter)
  blank := (blankFrom_erase flash programmed).blank
  programmed := (blankFrom_erase flash programmed).programmed

theorem not_sound_start (flash : ℕ → UInt8) (programmed : ℕ → Bool) (call : CounterCall) :
    ¬(start flash programmed).Sound order scratchpadPageSize call := by
  have hfilled : (start flash programmed).Filled order := filled_start flash programmed
  cases call with
  | writeUpCounter counter stack =>
    rintro ⟨hexamined, _⟩
    rw [zbWriteUpCounter_eq (hfilled.buf_free (.inl rfl)) rfl] at hexamined
    exact Nat.lt_irrefl _ (hexamined _ (mem_cons_of_mem _ mem_examined))
  | readUpCounter stack =>
    rintro ⟨hexamined, hsome, hrestored⟩
    have hsound : (start flash programmed).Sound order
        (scratchpadPageSize + 1) (.readUpCounter stack) :=
      ⟨fun i hi => Nat.lt_succ_of_lt (hexamined i hi), hsome, hrestored⟩
    exact (hfilled.keeps_restart hsound).1 rfl

theorem keeps_of_sound_iff (order : ByteOrder) (flash : ℕ → UInt8) (programmed : ℕ → Bool)
    (calls : List CounterCall) :
    AlongRun (CounterLog.step order) (Sound order (scratchpadPageSize + 1))
        (start flash programmed) calls ↔
      AlongRun (CounterLog.step order) (Keeps order) (start flash programmed) calls :=
  alongRun_congr (fun _ call hfilled => hfilled.sound_iff call)
    (fun _ _ _ hfilled hkeeps hstep => hfilled.step hkeeps hstep)
    (filled_start flash programmed)

/-- No call stays within the buffer; apart from the byte behind it, all is well
exactly as long as no counter ends in a blank byte. -/
theorem sound_iff_keeps (order : ByteOrder) (flash : ℕ → UInt8) (programmed : ℕ → Bool)
    (calls : List CounterCall) :
    (AlongRun (CounterLog.step order) (Sound order scratchpadPageSize)
        (start flash programmed) calls ↔ calls = []) ∧
      (AlongRun (CounterLog.step order) (Sound order (scratchpadPageSize + 1))
          (start flash programmed) calls ↔
        AlongRun (CounterLog.step order) (Keeps order)
          (start flash programmed) calls) := by
  refine ⟨?_, keeps_of_sound_iff order flash programmed calls⟩
  cases calls with
  | nil => exact iff_of_true trivial rfl
  | cons call rest =>
      refine iff_of_false ?_ (cons_ne_nil call rest)
      exact fun hsound => not_sound_start flash programmed call hsound.1

/-- Three counters from a blank page: the byte behind the buffer is read, and
the third counter does not get behind 255. -/
theorem not_sound_threeCounters :
    let calls : List CounterCall :=
      [254, 255, 256].map fun counter => .writeUpCounter counter fun _ => 0
    ¬AlongRun (CounterLog.step .bigEndian) (Sound .bigEndian scratchpadPageSize)
        (start (fun _ => 0) fun _ => false) calls ∧
      ¬AlongRun (CounterLog.step .bigEndian) (Sound .bigEndian (scratchpadPageSize + 1))
        (start (fun _ => 0) fun _ => false) calls := by
  refine ⟨fun hsound => not_sound_start _ _ _ hsound.1, ?_⟩
  rw [keeps_of_sound_iff]
  intro hkeeps
  have hthird := ((hkeeps.2 _ rfl).2 _ rfl).1 255 rfl
  exact hthird rfl

end CounterLog

end Zboss
