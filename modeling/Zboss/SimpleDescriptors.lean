import Zboss.ByteOrder
import Zboss.FlashMemory
import Zboss.PacketBuffer

/-!
# Simple descriptors on the air

`zb_copy_simple_desc` puts the number of the output clusters behind the input
clusters, and `ZB_GET_SIMPLE_DESC_RESP` moves it back.  Both ends may be of
either byte order; the two bit fields of the version lie in one byte.
-/

namespace Zboss

open FlashMemory List Function

abbrev HostMemory : Type := ℕ → UInt8

def overwriting : Technology UInt8 where
  meld _ cell := cell
  blank := 0
  blank_meld _ := rfl
  meld_self _ := rfl

namespace HostMemory

def store (mem : HostMemory) (pos : ℕ) (cells : List UInt8) : HostMemory :=
  program overwriting mem pos cells

def letoh16 (dst : HostMemory) (order : ByteOrder) (dstPos : ℕ) (src : HostMemory)
    (pos : ℕ) : HostMemory :=
  match order with
  | .littleEndian => dst.store dstPos (read src pos 2)
  | .bigEndian => dst.store dstPos (read src pos 2).reverse

def letoh16Xor (mem : HostMemory) (order : ByteOrder) (low : HostMemory → UInt8)
    (pos : ℕ) : HostMemory :=
  match order with
  | .littleEndian => mem
  | .bigEndian =>
      let mem := update mem pos (low mem ^^^ mem pos)
      let mem := update mem (pos + 1) (mem pos ^^^ low mem)
      update mem pos (mem pos ^^^ low mem)

def word (mem : HostMemory) (order : ByteOrder) (pos : ℕ) : UInt16 :=
  UInt16.ofNat (order.ofBytes (read mem pos 2))

end HostMemory

open HostMemory

def wordBytes (order : ByteOrder) (val : UInt16) : List UInt8 :=
  order.bytes 2 val.toNat

def wordsBytes (order : ByteOrder) (vals : List UInt16) : List UInt8 :=
  vals.flatMap (wordBytes order)

/-- `zb_af_simple_desc_1_1_t` with as many clusters as are counted. -/
@[ext] structure AfSimpleDesc where
  endpoint : UInt8
  appProfileId : UInt16
  appDeviceId : UInt16
  appDeviceVersion : UInt8
  appInputClusterCount : UInt8
  appOutputClusterCount : UInt8
  appClusterList : List UInt16
  length_eq : appClusterList.length =
    appInputClusterCount.toNat + appOutputClusterCount.toNat
  deriving DecidableEq

namespace AfSimpleDesc

def inputClusters (desc : AfSimpleDesc) : List UInt16 :=
  desc.appClusterList.take desc.appInputClusterCount.toNat

def outputClusters (desc : AfSimpleDesc) : List UInt16 :=
  desc.appClusterList.drop desc.appInputClusterCount.toNat

def front (desc : AfSimpleDesc) (order : ByteOrder) : List UInt8 :=
  [desc.endpoint] ++ wordBytes order desc.appProfileId ++
    wordBytes order desc.appDeviceId ++
    [desc.appDeviceVersion, desc.appInputClusterCount]

def layout (desc : AfSimpleDesc) (order : ByteOrder) : List UInt8 :=
  desc.front order ++ [desc.appOutputClusterCount] ++
    wordsBytes order desc.inputClusters ++ wordsBytes order desc.outputClusters

def standard (desc : AfSimpleDesc) : List UInt8 :=
  desc.front .littleEndian ++ wordsBytes .littleEndian desc.inputClusters ++
    [desc.appOutputClusterCount] ++
    wordsBytes .littleEndian desc.outputClusters

def clusterCount (desc : AfSimpleDesc) : ℕ :=
  desc.appInputClusterCount.toNat + desc.appOutputClusterCount.toNat

def ofMemory (order : ByteOrder) (mem : HostMemory) : AfSimpleDesc where
  endpoint := mem 0
  appProfileId := mem.word order 1
  appDeviceId := mem.word order 3
  appDeviceVersion := mem 5
  appInputClusterCount := mem 6
  appOutputClusterCount := mem 7
  appClusterList := (List.range ((mem 6).toNat + (mem 7).toNat)).map
    fun i => mem.word order (8 + 2 * i)
  length_eq := by rw [length_map, length_range]

end AfSimpleDesc

/-- The loops over the clusters, from the first one to be copied on. -/
def copyClusters (order : ByteOrder) (src : HostMemory) :
    ℕ → ℕ → ℕ → HostMemory → HostMemory
  | 0, _, _, dst => dst
  | count + 1, dstPos, pos, dst =>
      copyClusters order src count (dstPos + 2) (pos + 2)
        (dst.letoh16 order dstPos src pos)

def zbCopySimpleDesc (order : ByteOrder) (dst src : HostMemory) : HostMemory :=
  let dst := dst.store 0 (read src 0 8)
  let dst := dst.letoh16Xor order (· 2) 1
  let dst := dst.letoh16Xor order (· 4) 3
  let outCount := src 7
  let dst := copyClusters order src (src 6).toNat (8 - 1) 8 dst
  let dst := copyClusters order src (src 7).toNat (8 + 2 * (src 6).toNat)
    (8 + 2 * (src 6).toNat) dst
  dst.store (8 + 2 * (src 6).toNat - 1) [outCount]

/-- The response of `zdo_send_simple_desc_resp` with the descriptor which it has
found; `dst` is what lies where the descriptor is copied to. -/
def simpleDescResp (order : ByteOrder) (nwkAddr : UInt16) (dst src : HostMemory) :
    List UInt8 :=
  let length := UInt8.ofNat (12 + ((src 6).toNat + (src 7).toNat) * 2 - 4)
  [0] ++ wordBytes .littleEndian nwkAddr ++ [length] ++
    read (zbCopySimpleDesc order dst src) 0 length.toNat

/-- `ZB_GET_SIMPLE_DESC_RESP`, from the descriptor on; the macro is applied to
an array, whose address ends with `addr`. -/
def zbGetSimpleDescResp
    (order : ByteOrder) (addr : UInt8) (mem : HostMemory) : HostMemory :=
  let counter := mem (8 + 2 * (mem 6).toNat - 1)
  let mem := mem.store 8 (read mem 7 (2 * (mem 6).toNat))
  let mem := mem.store 7 [counter]
  (fun mem => mem.letoh16Xor order (fun _ => addr) 8)^[ (mem 6).toNat + (mem 7).toNat] mem

section Memory

variable {mem src : HostMemory} {order : ByteOrder} {pos k : ℕ}
  {cells front back : List UInt8}

theorem read_store (mem : HostMemory) (pos : ℕ) (cells : List UInt8) :
    read (mem.store pos cells) pos cells.length = cells :=
  read_program_iff.mpr fun _ _ => rfl

theorem read_store_of_disjoint {count : ℕ}
    (hdisjoint : k + count ≤ pos ∨ pos + cells.length ≤ k) :
    read (mem.store pos cells) k count = read mem k count :=
  read_program_of_disjoint hdisjoint

theorem read_front (hread : read mem pos (front ++ back).length = front ++ back) :
    read mem pos front.length = front := by
  rw [length_append, read_add] at hread
  exact (append_inj hread (length_read _ _ _)).1

theorem read_back (hread : read mem pos (front ++ back).length = front ++ back) :
    read mem (pos + front.length) back.length = back := by
  rw [length_append, read_add] at hread
  exact (append_inj hread (length_read _ _ _)).2

theorem read_store_inside (hk : k = pos + front.length) :
    read (mem.store pos (front ++ cells ++ back)) k cells.length = cells := by
  rw [hk]
  exact read_back (read_front (read_store _ _ _))

theorem read_one (mem : HostMemory) (pos : ℕ) : read mem pos 1 = [mem pos] :=
  rfl

theorem apply_of_read {cell : UInt8} (hread : read mem pos 1 = [cell]) :
    mem pos = cell := by
  rw [read_one] at hread
  exact singleton_inj.mp hread

theorem read_two (mem : HostMemory) (pos : ℕ) :
    read mem pos 2 = [mem pos, mem (pos + 1)] := rfl

theorem store_store {middle : List UInt8} (hk : k = pos + front.length)
    (hlength : cells.length = middle.length) :
    (mem.store pos (front ++ middle ++ back)).store k cells =
      mem.store pos (front ++ cells ++ back) := by
  subst hk
  rw [store, store, store, program_append, program_append, program_append,
    program_append, length_append, length_append, hlength]
  funext x
  by_cases hinside : pos + front.length ≤ x ∧ x < pos + front.length + middle.length
  · obtain ⟨i, rfl⟩ := Nat.exists_eq_add_of_le hinside.1
    have hi : i < cells.length := by omega
    refine (program_of_mem hi).trans (Eq.symm ?_)
    rw [program_of_not_mem (.inl (by omega))]
    exact program_of_mem hi
  · have houter (m : HostMemory) :
        program overwriting m (pos + front.length) cells x = m x :=
      program_of_not_mem (by omega)
    have hinner (m : HostMemory) :
        program overwriting m (pos + front.length) middle x = m x :=
      program_of_not_mem (by omega)
    rw [houter]
    by_cases hback : pos + (front.length + middle.length) ≤ x ∧
        x < pos + (front.length + middle.length) + back.length
    · obtain ⟨i, rfl⟩ := Nat.exists_eq_add_of_le hback.1
      have hi : i < back.length := by omega
      rw [program_of_mem hi, program_of_mem hi]
      rfl
    · have hlast (m : HostMemory) : program overwriting m
          (pos + (front.length + middle.length)) back x = m x :=
        program_of_not_mem (by omega)
      rw [hlast, hlast, hinner, houter]

@[simp] theorem length_word (order : ByteOrder) (val : UInt16) :
    (wordBytes order val).length = 2 := order.length_bytes 2 _

theorem wordsBytes_cons (order : ByteOrder) (val : UInt16) (rest : List UInt16) :
    wordsBytes order (val :: rest) =
      wordBytes order val ++ wordsBytes order rest :=
  flatMap_cons

@[simp] theorem length_words (order : ByteOrder) (vals : List UInt16) :
    (wordsBytes order vals).length = 2 * vals.length := by
  induction vals with
  | nil => rfl
  | cons val rest ih =>
    rw [wordsBytes_cons, length_append, length_word, ih, length_cons]
    omega

theorem letoh16_eq {dst : HostMemory} {dstPos : ℕ} {val : UInt16}
    (hread : read src pos 2 = wordBytes order val) :
    dst.letoh16 order dstPos src pos = dst.store dstPos (wordBytes .littleEndian val) := by
  cases order with
  | littleEndian => rw [HostMemory.letoh16, hread]
  | bigEndian =>
    rw [HostMemory.letoh16, hread, wordBytes, ByteOrder.bytes_bigEndian,
      reverse_reverse, wordBytes]

theorem xor_xor_cancel (a b : UInt8) : a ^^^ b ^^^ a = b := by
  rw [UInt8.xor_comm a b, UInt8.xor_assoc, UInt8.xor_self, UInt8.xor_zero]

theorem store_two (mem : HostMemory) (pos : ℕ) (other first second : UInt8) :
    update (update (update mem pos other) (pos + 1) second) pos first =
      mem.store pos [first, second] := by
  rw [update_comm (Nat.succ_ne_self pos), update_idem]
  rfl

theorem letoh16Xor_word (order : ByteOrder) (mem : HostMemory) (pos : ℕ) :
    mem.letoh16Xor order (· (pos + 1)) pos = mem.letoh16 order pos mem pos := by
  cases order with
  | littleEndian => exact (program_read mem pos 2).symm
  | bigEndian =>
    refine Eq.trans ?_ (store_two mem pos (mem (pos + 1) ^^^ mem pos) _ _)
    have hne : pos ≠ pos + 1 := (Nat.succ_ne_self pos).symm
    simp only [letoh16Xor, update_self, update_of_ne hne,
      update_of_ne hne.symm, xor_xor_cancel]
    rw [UInt8.xor_assoc, UInt8.xor_self, UInt8.xor_zero]
    rfl

theorem letoh16Xor_array (addr : UInt8) (mem : HostMemory) (pos : ℕ) :
    mem.letoh16Xor .bigEndian (fun _ => addr) pos = mem.store pos [mem pos, mem pos] := by
  refine Eq.trans ?_ (store_two mem pos (addr ^^^ mem pos) _ _)
  have hne : pos ≠ pos + 1 := (Nat.succ_ne_self pos).symm
  simp only [letoh16Xor, update_self, update_of_ne hne, xor_xor_cancel]

theorem iterate_letoh16Xor (addr : UInt8) (mem : HostMemory) (pos n : ℕ) :
    (fun mem : HostMemory => mem.letoh16Xor .bigEndian (fun _ => addr) pos)^[
        n + 1] mem = mem.store pos [mem pos, mem pos] := by
  induction n with
  | zero => exact letoh16Xor_array addr mem pos
  | succ n ih =>
    have hfirst : mem.store pos [mem pos, mem pos] pos = mem pos :=
      (update_of_ne (Nat.succ_ne_self pos).symm _ _).trans (update_self _ _ _)
    rw [iterate_succ_apply', ih, letoh16Xor_array, hfirst]
    exact @store_store mem pos pos [mem pos, mem pos] [] [] [mem pos, mem pos] rfl rfl

/-! ## The writer -/

theorem copyClusters_eq {vals : List UInt16} {dst : HostMemory} {dstPos : ℕ}
    (hread : read src pos (2 * vals.length) = wordsBytes order vals) :
    copyClusters order src vals.length dstPos pos dst =
      dst.store dstPos (wordsBytes .littleEndian vals) := by
  induction vals generalizing dst dstPos pos with
  | nil => rfl
  | cons val rest ih =>
    rw [length_cons, Nat.mul_succ, Nat.add_comm, read_add, wordsBytes_cons] at hread
    obtain ⟨hval, hrest⟩ := append_inj hread (by simp)
    rw [length_cons, copyClusters, ih hrest, letoh16_eq hval,
      wordsBytes_cons, store, store, store, program_append, length_word]

theorem letoh16Xor_store {val : UInt16} (hk : k = pos + front.length) :
    (mem.store pos (front ++ wordBytes order val ++ back)).letoh16Xor order (· (k + 1)) k =
      mem.store pos (front ++ wordBytes .littleEndian val ++ back) := by
  have hread : read (mem.store pos (front ++ wordBytes order val ++ back)) k
      2 = wordBytes order val := by
    have hinside : read (mem.store pos (front ++ wordBytes order val ++ back))
        k (wordBytes order val).length = wordBytes order val :=
      read_store_inside hk
    rwa [length_word] at hinside
  rw [letoh16Xor_word, letoh16_eq hread]
  exact store_store hk (by rw [length_word, length_word])

theorem read_words {vals : List UInt16} {i : ℕ} (hi : i < vals.length)
    (hread : read mem pos (2 * vals.length) = wordsBytes order vals) :
    read mem (pos + 2 * i) 2 = wordBytes order vals[i] := by
  induction vals generalizing pos i with
  | nil => exact absurd hi (Nat.not_lt_zero i)
  | cons val rest ih =>
    rw [length_cons, Nat.mul_succ, Nat.add_comm, read_add, wordsBytes_cons] at hread
    obtain ⟨hval, hrest⟩ := append_inj hread (by simp)
    cases i with
    | zero => exact hval
    | succ i =>
      have := ih (Nat.lt_of_succ_lt_succ hi) hrest
      rwa [Nat.add_assoc, Nat.add_comm 2, ← Nat.mul_succ] at this

end Memory

namespace AfSimpleDesc

variable (desc : AfSimpleDesc) (order reader : ByteOrder) (dst mem : HostMemory)

theorem length_inputClusters :
    desc.inputClusters.length = desc.appInputClusterCount.toNat := by
  rw [inputClusters, length_take, desc.length_eq]
  exact Nat.min_eq_left (Nat.le_add_right _ _)

theorem length_outputClusters :
    desc.outputClusters.length = desc.appOutputClusterCount.toNat := by
  rw [outputClusters, length_drop, desc.length_eq, Nat.add_sub_cancel_left]

@[simp] theorem length_front : (desc.front order).length = 7 := by
  simp [front]

def HeldBy : Prop :=
  read mem 0 (desc.layout order).length = desc.layout order

variable {desc order mem}

namespace HeldBy

section

variable (hheld : desc.HeldBy order mem)
include hheld

theorem front_eq : read mem 0 (desc.front order).length = desc.front order :=
  read_front (read_front (read_front hheld))

theorem output_count : mem 7 = desc.appOutputClusterCount := by
  have := read_back (read_front (read_front hheld))
  rw [length_front] at this
  exact apply_of_read this

theorem inputs : read mem 8 (2 * desc.inputClusters.length) =
    wordsBytes order desc.inputClusters := by
  have := read_back (read_front hheld)
  rwa [length_append, length_front, length_words] at this

theorem outputs : read mem (8 + 2 * desc.inputClusters.length)
      (2 * desc.outputClusters.length) =
    wordsBytes order desc.outputClusters := by
  have := read_back hheld
  rwa [length_append, length_append, length_front, length_words,
    length_words, Nat.zero_add] at this

theorem version_and_count :
    mem 5 = desc.appDeviceVersion ∧ mem 6 = desc.appInputClusterCount := by
  have hcells := read_back hheld.front_eq
  rw [length_append, length_append, length_word, length_word] at hcells
  injection hcells with hversion hrest
  exact ⟨hversion, singleton_inj.mp hrest⟩

theorem device_word : read mem 3 2 = wordBytes order desc.appDeviceId := by
  have := read_back (read_front hheld.front_eq)
  rwa [length_append, length_word, length_word] at this

theorem profile_word : read mem 1 2 = wordBytes order desc.appProfileId := by
  have := read_back (read_front (read_front hheld.front_eq))
  rwa [length_word] at this

theorem endpoint_eq : mem 0 = desc.endpoint :=
  apply_of_read (read_front (read_front (read_front hheld.front_eq)))

theorem clusters : read mem 8 (2 * desc.appClusterList.length) =
    wordsBytes order desc.appClusterList := by
  have hsplit : desc.appClusterList = desc.inputClusters ++ desc.outputClusters :=
    (take_append_drop _ _).symm
  rw [hsplit, length_append, Nat.mul_add, read_add, hheld.inputs,
    hheld.outputs, wordsBytes, wordsBytes, wordsBytes, flatMap_append]

theorem zbCopySimpleDesc_eq (dst : HostMemory) :
    zbCopySimpleDesc order dst mem = (((dst.store 0 (desc.front .littleEndian ++
        [desc.appOutputClusterCount])).store 7
          (wordsBytes .littleEndian desc.inputClusters)).store
            (8 + 2 * desc.inputClusters.length)
              (wordsBytes .littleEndian desc.outputClusters)).store
                (7 + 2 * desc.inputClusters.length)
                [desc.appOutputClusterCount] := by
  have hfirst : read mem 0 8 = desc.front order ++ [desc.appOutputClusterCount] := by
    have hfront := hheld.front_eq
    rw [length_front] at hfront
    rw [show 8 = 7 + 1 from rfl, read_add, hfront, read_one, Nat.zero_add,
      hheld.output_count]
  have hprofile : (dst.store 0 (read mem 0 8)).letoh16Xor order (· 2) 1 =
      dst.store 0 ([desc.endpoint] ++ wordBytes .littleEndian desc.appProfileId ++
          (wordBytes order desc.appDeviceId ++ [desc.appDeviceVersion,
            desc.appInputClusterCount, desc.appOutputClusterCount])) := by
    have hword := @letoh16Xor_store dst order 0 1 [desc.endpoint]
      (wordBytes order desc.appDeviceId ++ [desc.appDeviceVersion,
        desc.appInputClusterCount, desc.appOutputClusterCount])
      desc.appProfileId rfl
    rw [hfirst, ← hword]
    simp only [front, append_assoc, cons_append, nil_append]
  have hdevice : ((dst.store 0 (read mem 0 8)).letoh16Xor order (· 2)
      1).letoh16Xor order (· 4) 3 = dst.store 0 (desc.front .littleEndian ++
          [desc.appOutputClusterCount]) := by
    rw [hprofile, ← append_assoc]
    refine (letoh16Xor_store (by simp)).trans ?_
    simp only [front, append_assoc, cons_append, nil_append]
  have hinput : (mem 6).toNat = desc.inputClusters.length := by
    rw [hheld.version_and_count.2, length_inputClusters]
  have houtput : (mem 7).toNat = desc.outputClusters.length := by
    rw [hheld.output_count, length_outputClusters]
  have hpos : 8 + 2 * desc.inputClusters.length - 1 =
      7 + 2 * desc.inputClusters.length := by
    omega
  rw [zbCopySimpleDesc, hdevice, hinput, houtput, copyClusters_eq hheld.inputs,
    copyClusters_eq hheld.outputs, hheld.output_count, hpos]

theorem read_zbCopySimpleDesc (dst : HostMemory) :
    read (zbCopySimpleDesc order dst mem) 0 (8 + 2 * desc.clusterCount) =
      desc.standard := by
  have hcount : 8 + 2 * desc.clusterCount = 7 + 2 * desc.inputClusters.length + 1 +
        2 * desc.outputClusters.length := by
    rw [clusterCount, length_inputClusters, length_outputClusters]
    omega
  have hfront := read_front (read_store dst 0 (desc.front .littleEndian ++
    [desc.appOutputClusterCount]))
  have hinputs (start : HostMemory) := read_store start 7
    (wordsBytes .littleEndian desc.inputClusters)
  have houtputs (start : HostMemory) := read_store start
    (8 + 2 * desc.inputClusters.length)
    (wordsBytes .littleEndian desc.outputClusters)
  have hnumber (start : HostMemory) := read_store start
    (7 + 2 * desc.inputClusters.length) [desc.appOutputClusterCount]
  simp only [length_words, length_front, length_singleton]
    at hfront hinputs houtputs hnumber
  rw [hheld.zbCopySimpleDesc_eq, hcount, read_add, read_add, read_add, standard]
  refine congrArg₂ _ (congrArg₂ _ (congrArg₂ _ ?_ ?_) ?_) ?_
  · rw [read_store_of_disjoint (.inl (by omega)), read_store_of_disjoint (.inl (by omega)),
      read_store_of_disjoint (.inl (by omega)), hfront]
  · rw [read_store_of_disjoint (by simp), read_store_of_disjoint (by simp), hinputs]
  · rw [Nat.zero_add, hnumber]
  · rw [read_store_of_disjoint (by simp), Nat.zero_add, Nat.add_right_comm, houtputs]

end

end HeldBy

theorem length_standard : desc.standard.length = 8 + 2 * desc.clusterCount := by
  simp only [standard, length_append, length_front, length_words,
    length_inputClusters, length_outputClusters, length_singleton,
    clusterCount]
  omega

theorem zbGetSimpleDescResp_eq (reader : ByteOrder) (addr : UInt8)
    (hread : read mem 0 desc.standard.length = desc.standard) :
    ∃ base : HostMemory, desc.HeldBy .littleEndian base ∧
      zbGetSimpleDescResp reader addr mem =
        (fun mem : HostMemory => mem.letoh16Xor reader (fun _ => addr) 8)^[
          desc.clusterCount] base := by
  have hfront := read_front (read_front (read_front hread))
  have hcount : mem 6 = desc.appInputClusterCount := by
    have hlast := read_back hfront
    injection hlast with _ hrest
    exact singleton_inj.mp hrest
  have hinput : (mem 6).toNat = desc.inputClusters.length := by
    rw [hcount, length_inputClusters]
  have hinputs := read_back (read_front (read_front hread))
  have houtputs := read_back hread
  have hnumber := read_back (read_front hread)
  simp only [length_append, length_words, length_front,
    length_singleton, Nat.zero_add] at hfront hinputs hnumber houtputs
  have hpos : 8 + 2 * desc.inputClusters.length - 1 =
      7 + 2 * desc.inputClusters.length := by
    omega
  have hheld : desc.HeldBy .littleEndian ((mem.store 8 (wordsBytes .littleEndian
      desc.inputClusters)).store 7 [desc.appOutputClusterCount]) := by
    have hsplit : (desc.layout .littleEndian).length =
        7 + 1 + 2 * desc.inputClusters.length +
          2 * desc.outputClusters.length := by
      simp only [layout, length_append, length_words, length_front, length_singleton]
    rw [HeldBy, hsplit, read_add, read_add, read_add, layout]
    refine congrArg₂ _ (congrArg₂ _ (congrArg₂ _ ?_ ?_) ?_) ?_
    · rw [read_store_of_disjoint (.inl (by omega)),
        read_store_of_disjoint (.inl (by omega)), hfront]
    · exact read_store _ 7 [desc.appOutputClusterCount]
    · rw [read_store_of_disjoint (.inr (by simp))]
      have := read_store mem 8 (wordsBytes .littleEndian desc.inputClusters)
      rwa [length_words] at this
    · rw [read_store_of_disjoint (.inr (by simp)), read_store_of_disjoint (.inr (by simp))]
      rwa [Nat.zero_add, Nat.add_right_comm 7]
  refine ⟨_, hheld, ?_⟩
  rw [zbGetSimpleDescResp, hinput, hpos, hinputs,
    apply_of_read hnumber, hheld.version_and_count.2, hheld.output_count]
  rfl

/-! ## Reading the structure -/

def EqualBytes (val : UInt16) : Prop := val.toNat / 256 = val.toNat % 256

theorem wordBytes_littleEndian (val : UInt16) : wordBytes .littleEndian val =
      [UInt8.ofNat val.toNat, UInt8.ofNat (val.toNat / 256)] := by
  rw [wordBytes, ByteOrder.bytes_littleEndian_succ, ByteOrder.bytes_littleEndian_succ]
  rfl

section Words

variable {pos : ℕ} {val : UInt16}

theorem word_littleEndian (hread : read mem pos 2 = wordBytes .littleEndian val) :
    mem.word .littleEndian pos = val := by
  rw [HostMemory.word, hread, wordBytes,
    ByteOrder.ofBytes_bytes _ (show _ < 256 ^ 2 from val.toNat_lt),
    UInt16.ofNat_toNat]

theorem word_bigEndian_iff {high low : UInt8} (hread : read mem pos 2 = [high, low]) :
    mem.word .bigEndian pos = val ↔ 256 * high.toNat + low.toNat = val.toNat := by
  have hhigh := high.toNat_lt
  have hlow := low.toNat_lt
  rw [HostMemory.word, hread, ← UInt16.toNat_inj, UInt16.toNat_ofNat',
    ByteOrder.ofBytes, foldl_cons, foldl_cons, foldl_nil,
    Nat.mod_eq_of_lt (by omega)]
  omega

theorem word_swapped_iff (hread : read mem pos 2 = wordBytes .littleEndian val) :
    mem.word .bigEndian pos = val ↔ EqualBytes val := by
  have hval : val.toNat < 65536 := val.toNat_lt
  rw [wordBytes_littleEndian] at hread
  rw [word_bigEndian_iff hread, EqualBytes, UInt8.toNat_ofNat', UInt8.toNat_ofNat']
  omega

theorem word_doubled_iff
    (hread : read mem pos 2 = [UInt8.ofNat val.toNat, UInt8.ofNat val.toNat]) :
    mem.word .bigEndian pos = val ↔ EqualBytes val := by
  rw [word_bigEndian_iff hread, EqualBytes, UInt8.toNat_ofNat']
  omega

end Words

variable {base : HostMemory} {reader : ByteOrder}

theorem ofMemory_eq_iff (hheld : desc.HeldBy .littleEndian base)
    (hsame : ∀ k < 8, mem k = base k) :
    ofMemory reader mem = desc ↔ mem.word reader 1 = desc.appProfileId ∧
        mem.word reader 3 = desc.appDeviceId ∧ ∀ i (hi : i < desc.appClusterList.length),
            mem.word reader (8 + 2 * i) = desc.appClusterList[i] := by
  obtain ⟨hversion, hinput⟩ := hheld.version_and_count
  have hlength : (mem 6).toNat + (mem 7).toNat = desc.appClusterList.length := by
    rw [hsame 6 (by decide), hsame 7 (by decide), hinput, hheld.output_count,
      desc.length_eq]
  have hmap : (ofMemory reader mem).appClusterList =
      (List.range desc.appClusterList.length).map
        fun i => mem.word reader (8 + 2 * i) := by
    rw [← hlength]
    rfl
  constructor
  · intro heq
    refine ⟨congrArg appProfileId heq, congrArg appDeviceId heq, fun i hi => ?_⟩
    have hlist : (ofMemory reader mem).appClusterList = desc.appClusterList :=
      congrArg appClusterList heq
    rw [hmap] at hlist
    rw [← getElem_of_eq hlist (by simpa using hi), getElem_map, getElem_range]
  · rintro ⟨hprofile, hdevice, hclusters⟩
    refine AfSimpleDesc.ext ?_ hprofile hdevice ?_ ?_ ?_ ?_
    · exact (hsame 0 (by decide)).trans hheld.endpoint_eq
    · exact (hsame 5 (by decide)).trans hversion
    · exact (hsame 6 (by decide)).trans hinput
    · exact (hsame 7 (by decide)).trans hheld.output_count
    · rw [hmap]
      refine ext_getElem (by simp) fun i _ hi => ?_
      rw [getElem_map, getElem_range, hclusters i hi]

structure SameInBothOrders (desc : AfSimpleDesc) : Prop where
  profile : EqualBytes desc.appProfileId
  device : EqualBytes desc.appDeviceId
  clusters : ∀ cluster ∈ desc.appClusterList, EqualBytes cluster

theorem ofMemory_littleEndian (hheld : desc.HeldBy .littleEndian base) :
    ofMemory .littleEndian base = desc := by
  refine (ofMemory_eq_iff hheld fun _ _ => rfl).mpr
    ⟨word_littleEndian hheld.profile_word, word_littleEndian hheld.device_word,
      fun i hi => word_littleEndian (read_words hi hheld.clusters)⟩

theorem ofMemory_bigEndian_iff (addr : UInt8) (hheld : desc.HeldBy .littleEndian base) :
    ofMemory .bigEndian ((fun mem : HostMemory => mem.letoh16Xor .bigEndian (fun _ => addr)
          8)^[desc.clusterCount] base) = desc ↔
      desc.SameInBothOrders := by
  have hlength : desc.appClusterList.length = desc.clusterCount := desc.length_eq
  -- Only the first cluster is written, with its own first byte twice.
  obtain ⟨next, hnext, hsame, hrest, hfirst⟩ : ∃ next : HostMemory,
      (fun mem : HostMemory => mem.letoh16Xor .bigEndian (fun _ => addr)
        8)^[desc.clusterCount] base = next ∧
      (∀ k < 8, next k = base k) ∧
      (∀ i, 0 < i → read next (8 + 2 * i) 2 = read base (8 + 2 * i) 2) ∧
      (0 < desc.clusterCount → read next 8 2 = [base 8, base 8]) := by
    cases desc.clusterCount with
    | zero =>
      exact ⟨base, rfl, fun _ _ => rfl, fun _ _ => rfl,
        fun hpos => absurd hpos (Nat.lt_irrefl 0)⟩
    | succ n =>
      refine ⟨base.store 8 [base 8, base 8], iterate_letoh16Xor addr base 8 n,
        fun k hk => program_of_not_mem (.inl hk), fun i hi => ?_, fun _ =>
          read_store base 8 [base 8, base 8]⟩
      exact read_store_of_disjoint (.inr (by simp; omega))
  have hfront : ∀ k, k + 2 ≤ 8 → read next k 2 = read base k 2 := by
    intro k hk
    exact read_congr fun i hi => hsame (k + i) (by omega)
  have hcluster : ∀ i (hi : i < desc.appClusterList.length),
      next.word .bigEndian (8 + 2 * i) = desc.appClusterList[i] ↔
        EqualBytes desc.appClusterList[i] := by
    intro i hi
    have hword := read_words hi hheld.clusters
    rcases Nat.eq_zero_or_pos i with rfl | hpos
    · have hbyte := hword
      rw [wordBytes_littleEndian, read_two, Nat.mul_zero, Nat.add_zero] at hbyte
      refine word_doubled_iff ((hfirst (hlength ▸ hi)).trans ?_)
      rw [head_eq_of_cons_eq hbyte]
    · exact word_swapped_iff ((hrest i hpos).trans hword)
  rw [hnext, ofMemory_eq_iff hheld hsame,
    word_swapped_iff ((hfront 1 (by decide)).trans hheld.profile_word),
    word_swapped_iff ((hfront 3 (by decide)).trans hheld.device_word)]
  constructor
  · rintro ⟨hprofile, hdevice, hclusters⟩
    refine ⟨hprofile, hdevice, fun cluster hmem => ?_⟩
    obtain ⟨i, hi, rfl⟩ := mem_iff_getElem.mp hmem
    exact (hcluster i hi).mp (hclusters i hi)
  · rintro ⟨hprofile, hdevice, hclusters⟩
    exact ⟨hprofile, hdevice, fun i hi =>
      (hcluster i hi).mpr (hclusters _ (getElem_mem hi))⟩

end AfSimpleDesc

/-- A response has the standard layout, and its receiver reads the same
descriptor. -/
def RoundTrips (order reader : ByteOrder) (desc : AfSimpleDesc) (nwkAddr : UInt16)
    (addr : UInt8) (dst src behind : HostMemory) : Prop :=
  let resp := simpleDescResp order nwkAddr dst src
  resp = [0] ++ wordBytes .littleEndian nwkAddr ++
      [UInt8.ofNat desc.standard.length] ++ desc.standard ∧
    AfSimpleDesc.ofMemory reader
      (zbGetSimpleDescResp reader addr (behind.store 0 (resp.drop 4))) = desc

def homeAutomationDesc : AfSimpleDesc where
  endpoint := 1
  appProfileId := 0x0104
  appDeviceId := 0
  appDeviceVersion := 0
  appInputClusterCount := 2
  appOutputClusterCount := 1
  appClusterList := [0x0003, 0x0006, 0x0102]
  length_eq := rfl

end Zboss
