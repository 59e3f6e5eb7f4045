import Zboss.ZdpBounds

/-!
# Match descriptor requests end to end

What `zdo_match_desc_res` answers to a request as `zb_zdo_match_desc_req`
encodes it, in the release build for the 8051.
-/

namespace Zboss

open Function List

def hostWord (mem : ℤ → UInt8) (address : ℤ) : ℕ :=
  256 * (mem address).toNat + (mem (address + 1)).toNat

/-- `ZB_MEMCPY`, from the first byte on. -/
def zbMemcpy (mem : ℤ → UInt8) (dst src : ℤ) : ℕ → ℤ → UInt8
  | 0 => mem
  | size + 1 => zbMemcpy (update mem dst (mem src)) (dst + 1) (src + 1) size

/-- The loop over `i`; the count is read again each time.  It ends with the
pointers behind the clusters. -/
def writeClusters (count : ℤ) : ℕ → ℕ → (ℤ → UInt8) → ℤ → ℤ → (ℤ → UInt8) × ℤ × ℤ
  | 0, _, mem, dst, src => (mem, dst, src)
  | fuel + 1, i, mem, dst, src =>
      if i < (mem count).toNat then
        writeClusters count fuel (i + 1) (zbHtole16 mem dst src).1 (dst + 2) (src + 2)
      else (mem, dst, src)

/-- The request at `body`, made of the parameters at `param`; a counter which is
compared with a byte gets to 255 at most. -/
def writeMatchDesc (mem : ℤ → UInt8) (body param : ℤ) : ℤ → UInt8 :=
  let mem := (zbHtole16 mem body param).1
  let mem := (zbHtole16 mem (body + 2) (param + 2)).1
  let mem := update mem (body + 4) (mem (param + 4))
  let (mem, dst, src) := writeClusters (param + 4) 256 0 mem (body + 5) (param + 6)
  let mem := update mem dst (mem (param + 5))
  (writeClusters (param + 5) 256 0 mem (dst + 1) src).1

/-- The buffer with `zb_zdo_match_desc_param_t` in it. -/
structure MatchDescParam where
  mem : ℤ → UInt8
  dataOffset : ℕ

namespace MatchDescParam

variable (param : MatchDescParam)

def nwkAddr : ℕ := hostWord param.mem param.dataOffset

def profileId : ℕ := hostWord param.mem (param.dataOffset + 2)

def numInClusters : ℕ := (param.mem (param.dataOffset + 4)).toNat

def numOutClusters : ℕ := (param.mem (param.dataOffset + 5)).toNat

def num : ℕ := param.numInClusters + param.numOutClusters

def cluster (k : ℕ) : ℕ := hostWord param.mem (param.dataOffset + 6 + 2 * k)

def inClusters : List ℕ := (List.range param.numInClusters).map param.cluster

def outClusters : List ℕ :=
  (List.range param.numOutClusters).map fun k => param.cluster (param.numInClusters + k)

/-- `match_param`, in the tail of the buffer. -/
def tail : ℤ := ioBufSize - (8 + 2 * param.num)

def copied : ℤ → UInt8 :=
  zbMemcpy param.mem param.tail param.dataOffset (8 + 2 * param.num)

end MatchDescParam

structure MatchDescSent where
  mem : ℤ → UInt8
  dataOffset : ℕ
  len : ℕ
  dstAddr : ℕ

/-- `zb_zdo_match_desc_req` for a request which fits the buffer. -/
def zbZdoMatchDescReq (param : MatchDescParam) : MatchDescSent :=
  let len := 6 + 2 * ((param.copied (param.tail + 4)).toNat +
    (param.copied (param.tail + 5)).toNat)
  let body := (ioBufSize - len) / 2
  let mem := writeMatchDesc param.copied body param.tail
  ⟨mem, body, len, hostWord mem param.tail⟩

section Copies

variable (mem : ℤ → UInt8) (dst src : ℤ) {address : ℤ} {num k : ℕ}

theorem zbMemcpy_outside (houtside : address < dst ∨ dst + num ≤ address) :
    zbMemcpy mem dst src num address = mem address := by
  induction num generalizing mem dst src with
  | zero => rfl
  | succ num ih =>
    push_cast at houtside
    rw [zbMemcpy, ih _ _ _ (by omega), update_of_ne (by omega)]

theorem zbMemcpy_inside (hk : k < num) (hbefore : src + k < dst) :
    zbMemcpy mem dst src num (dst + k) = mem (src + k) := by
  induction num generalizing mem dst src k with
  | zero => omega
  | succ num ih =>
    rw [zbMemcpy]
    cases k with
    | zero =>
      rw [zbMemcpy_outside _ _ _ (by omega)]
      simp
    | succ k =>
      push_cast at hbefore ⊢
      have hdst : dst + ((k : ℤ) + 1) = dst + 1 + k := by omega
      have hsrc : src + ((k : ℤ) + 1) = src + 1 + k := by omega
      rw [hdst, ih _ _ _ (by omega) (by omega), hsrc, update_of_ne (by omega)]

theorem copyClusterId_outside (houtside : address < dst ∨ dst + 2 * num ≤ address) :
    (copyClusterId mem dst src num).1 address = mem address := by
  induction num generalizing mem dst src with
  | zero => rfl
  | succ num ih =>
    push_cast at houtside
    rw [copyClusterId]
    dsimp only
    rw [ih _ _ _ (by omega), zbHtole16]
    dsimp only
    rw [update_of_ne (by omega), update_of_ne (by omega)]

/-- By induction on the clusters: the first one is exchanged, and neither it nor
the source of the others is written again. -/
theorem copyClusterId_inside (hk : k < num)
    (hapart : src + 2 * num ≤ dst ∨ dst + 2 * num ≤ src) :
    (copyClusterId mem dst src num).1 (dst + 2 * k) = mem (src + 2 * k + 1) ∧
      (copyClusterId mem dst src num).1 (dst + 2 * k + 1) =
        mem (src + 2 * k) := by
  induction num generalizing mem dst src k with
  | zero => omega
  | succ num ih =>
    push_cast at hapart
    have hfirst : ∀ a, a ≠ dst → a ≠ dst + 1 → (zbHtole16 mem dst src).1 a = mem a := by
      intro a hdst hnext
      rw [zbHtole16]
      dsimp only
      rw [update_of_ne hnext, update_of_ne hdst]
    rw [copyClusterId]
    dsimp only
    cases k with
    | zero =>
      rw [copyClusterId_outside _ _ _ (by omega),
        copyClusterId_outside _ _ _ (by omega), zbHtole16]
      dsimp only
      simp only [Nat.cast_zero, mul_zero, add_zero]
      rw [update_of_ne (by omega), update_self, update_self, update_of_ne (by omega)]
      exact ⟨rfl, rfl⟩
    | succ k =>
      have hdst : dst + 2 * ((k + 1 : ℕ) : ℤ) = dst + 2 + 2 * k := by
        push_cast
        omega
      have hsrc : src + 2 * ((k + 1 : ℕ) : ℤ) = src + 2 + 2 * k := by
        push_cast
        omega
      obtain ⟨hlow, hhigh⟩ :=
        ih (k := k) (zbHtole16 mem dst src).1 (dst + 2) (src + 2) (by omega) (by omega)
      rw [hdst, hsrc, hlow, hhigh, hfirst _ (by omega) (by omega),
        hfirst _ (by omega) (by omega)]
      exact ⟨rfl, rfl⟩

/-- The copy of clusters which begin one byte behind it: the high byte of each
is what the next one has as its low byte. -/
theorem copyClusterId_shifted (hk : k < num) :
    (copyClusterId mem dst (dst + 1) num).1 (dst + 2 * k) = mem (dst + 2 * k + 2) ∧
      (copyClusterId mem dst (dst + 1) num).1 (dst + 2 * k + 1) =
        mem (dst + 2 * k + 1) := by
  induction num generalizing mem dst k with
  | zero => omega
  | succ num ih =>
    have hfirst : ∀ a, a ≠ dst → (zbHtole16 mem dst (dst + 1)).1 a = mem a := by
      intro a hdst
      rw [zbHtole16]
      dsimp only
      by_cases hnext : a = dst + 1
      · rw [hnext, update_self, update_of_ne (by omega)]
      · rw [update_of_ne hnext, update_of_ne hdst]
    have hsrc : dst + 1 + 2 = dst + 2 + 1 := by omega
    rw [copyClusterId, hsrc]
    dsimp only
    cases k with
    | zero =>
      rw [copyClusterId_outside _ _ _ (by omega), copyClusterId_outside _ _ _ (by omega),
        hfirst (dst + 2 * (0 : ℕ) + 1) (by omega), zbHtole16]
      dsimp only
      simp only [Nat.cast_zero, mul_zero, add_zero]
      rw [update_of_ne (by omega), update_self, add_assoc dst 1 1]
      exact ⟨rfl, trivial⟩
    | succ k =>
      have hdst : dst + 2 * ((k + 1 : ℕ) : ℤ) = dst + 2 + 2 * k := by
        push_cast
        omega
      obtain ⟨hhigh, hlow⟩ :=
        ih (k := k) (zbHtole16 mem dst (dst + 1)).1 (dst + 2) (by omega)
      rw [hdst, hhigh, hlow, hfirst _ (by omega), hfirst _ (by omega)]
      exact ⟨rfl, rfl⟩

theorem writeClusters_eq {count : ℤ} {fuel i : ℕ} (rest : ℕ) (hfuel : rest < fuel)
    (hcount : (mem count).toNat = i + rest)
    (houtside : count < dst ∨ dst + 2 * rest ≤ count) :
    writeClusters count fuel i mem dst src =
      ((copyClusterId mem dst src rest).1, dst + 2 * rest, src + 2 * rest) := by
  induction rest generalizing fuel i mem dst src with
  | zero =>
    obtain ⟨fuel, rfl⟩ := Nat.exists_eq_succ_of_ne_zero (by omega : fuel ≠ 0)
    rw [writeClusters, if_neg (by omega)]
    simp [copyClusterId]
  | succ rest ih =>
    obtain ⟨fuel, rfl⟩ := Nat.exists_eq_succ_of_ne_zero (by omega : fuel ≠ 0)
    push_cast at houtside
    have hkept : (zbHtole16 mem dst src).1 count = mem count := by
      rw [zbHtole16]
      dsimp only
      rw [update_of_ne (by omega), update_of_ne (by omega)]
    rw [writeClusters, if_pos (by omega),
      ih _ _ _ (by omega) (by rw [hkept]; omega) (by omega), copyClusterId]
    push_cast
    refine Prod.ext rfl (Prod.ext ?_ ?_)
    · dsimp only
      omega
    · dsimp only
      omega

end Copies

structure ZdpFrame.CarriesRequest (frame : ZdpFrame) (param : MatchDescParam) : Prop where
  nwkAddr : frame.word 1 = param.nwkAddr
  profileId : frame.word 3 = param.profileId
  numIn : frame.matchNumIn = param.numInClusters
  numOut : frame.matchNumOut = param.numOutClusters
  inCluster : ∀ k < param.numInClusters, frame.word (6 + 2 * k) = param.cluster k
  outCluster : ∀ k < param.numOutClusters,
    frame.word (7 + 2 * param.numInClusters + 2 * k) =
      param.cluster (param.numInClusters + k)

structure MatchDescParam.Apart (param : MatchDescParam) : Prop where
  before : param.dataOffset + 4 * param.num + 14 ≤ ioBufSize
  after : 3 * param.num ≤ 63

def MatchDescSent.Reaches (sent : MatchDescSent) (frame : ZdpFrame) : Prop :=
  ∀ i < sent.len, frame.byte (1 + i) = sent.mem (sent.dataOffset + i)

/-- What is written at `body` if the parameters are behind it. -/
structure RequestAt (mem written : ℤ → UInt8) (body tail : ℤ)
    (numIn numOut : ℕ) : Prop where
  header : ∀ k : ℕ, k < 2 → written (body + 2 * k) = mem (tail + 2 * k + 1) ∧
      written (body + 2 * k + 1) = mem (tail + 2 * k)
  inCount : written (body + 4) = mem (tail + 4)
  inCluster : ∀ k < numIn, written (body + 5 + 2 * k) = mem (tail + 6 + 2 * k + 1) ∧
      written (body + 5 + 2 * k + 1) = mem (tail + 6 + 2 * k)
  outCount : written (body + 5 + 2 * numIn) = mem (tail + 5)
  outCluster : ∀ k < numOut, written (body + 6 + 2 * numIn + 2 * k) =
        mem (tail + 6 + 2 * numIn + 2 * k + 1) ∧
      written (body + 6 + 2 * numIn + 2 * k + 1) = mem (tail + 6 + 2 * numIn + 2 * k)

section Client

variable {param : MatchDescParam} {mem : ℤ → UInt8} (body : ℤ) {tail : ℤ}
  {numIn numOut : ℕ}

theorem requestAt_writeMatchDesc (hin : (mem (tail + 4)).toNat = numIn)
    (hout : (mem (tail + 5)).toNat = numOut)
    (hapart : body + 6 + 2 * (numIn + numOut) ≤ tail) :
    RequestAt mem (writeMatchDesc mem body tail) body tail numIn numOut := by
  have hinLt := (mem (tail + 4)).toNat_lt
  have houtLt := (mem (tail + 5)).toNat_lt
  -- the first two numbers are written like two clusters
  have hhead (k : ℕ) (hk : k < 2) :=
    copyClusterId_inside mem body tail hk (by push_cast; omega)
  have hbehind (a : ℤ) (ha : tail ≤ a) : (copyClusterId mem body tail 2).1 a = mem a :=
    copyClusterId_outside _ _ _ (by push_cast; omega)
  have hwrite : writeMatchDesc mem body tail =
      let mem := (copyClusterId mem body tail 2).1
      let mem := update mem (body + 4) (mem (tail + 4))
      let (mem, dst, src) := writeClusters (tail + 4) 256 0 mem (body + 5) (tail + 6)
      let mem := update mem dst (mem (tail + 5))
      (writeClusters (tail + 5) 256 0 mem (dst + 1) src).1 := rfl
  generalize (copyClusterId mem body tail 2).1 = mem₁ at hhead hbehind hwrite
  dsimp only at hwrite
  generalize hmem₂ : update mem₁ (body + 4) (mem₁ (tail + 4)) = mem₂ at hwrite
  have hbehind₂ (a : ℤ) (ha : tail ≤ a) : mem₂ a = mem a := by
    rw [← hmem₂, update_of_ne (by omega), hbehind a ha]
  have hloop₃ : writeClusters (tail + 4) 256 0 mem₂ (body + 5) (tail + 6) = _ :=
    writeClusters_eq _ _ _ numIn (by omega)
      (by rw [hbehind₂ _ (by omega), hin, Nat.zero_add]) (by omega)
  rw [hloop₃] at hwrite
  have hin₃ (k : ℕ) (hk : k < numIn) :=
    copyClusterId_inside mem₂ (body + 5) (tail + 6) hk (by omega)
  have houtside₃ (a : ℤ) (ha : a < body + 5 ∨ body + 5 + 2 * numIn ≤ a) :
      (copyClusterId mem₂ (body + 5) (tail + 6) numIn).1 a = mem₂ a :=
    copyClusterId_outside _ _ _ ha
  dsimp only at hwrite
  generalize (copyClusterId mem₂ (body + 5) (tail + 6) numIn).1 = mem₃
    at hin₃ houtside₃ hwrite
  generalize hmem₄ : update mem₃ (body + 5 + 2 * numIn) (mem₃ (tail + 5)) = mem₄ at hwrite
  have hbehind₄ (a : ℤ) (ha : tail ≤ a) : mem₄ a = mem a := by
    rw [← hmem₄, update_of_ne (by omega), houtside₃ a (by omega), hbehind₂ a ha]
  have hdst : body + 5 + 2 * numIn + 1 = body + 6 + 2 * numIn := by omega
  rw [hdst] at hwrite
  have hloop₅ : writeClusters (tail + 5) 256 0 mem₄ (body + 6 + 2 * numIn)
      (tail + 6 + 2 * numIn) = _ :=
    writeClusters_eq _ _ _ numOut (by omega)
      (by rw [hbehind₄ _ (by omega), hout, Nat.zero_add]) (by omega)
  rw [hloop₅] at hwrite
  have hout₅ (k : ℕ) (hk : k < numOut) :=
    copyClusterId_inside mem₄ (body + 6 + 2 * numIn) (tail + 6 + 2 * numIn) hk (by omega)
  have hbefore₅ (a : ℤ) (ha : a < body + 6 + 2 * numIn) :
      writeMatchDesc mem body tail a = mem₄ a := by
    rw [hwrite]
    exact copyClusterId_outside _ _ _ (by omega)
  have hbefore₄ (a : ℤ) (ha : a < body + 5 + 2 * numIn) : mem₄ a = mem₃ a := by
    rw [← hmem₄, update_of_ne (by omega)]
  have hhead₂ (a : ℤ) (ha : a < body + 4) : writeMatchDesc mem body tail a = mem₁ a := by
    rw [hbefore₅ a (by omega), hbefore₄ a (by omega), houtside₃ a (by omega),
      ← hmem₂, update_of_ne (by omega)]
  constructor
  case header =>
    intro k hk
    rw [hhead₂ _ (by omega), hhead₂ _ (by omega)]
    exact hhead k hk
  case inCount =>
    rw [hbefore₅ _ (by omega), hbefore₄ _ (by omega), houtside₃ _ (by omega),
      ← hmem₂, update_self, hbehind _ (by omega)]
  case inCluster =>
    intro k hk
    rw [hbefore₅ _ (by omega), hbefore₄ _ (by omega), hbefore₅ _ (by omega),
      hbefore₄ _ (by omega), (hin₃ k hk).1, (hin₃ k hk).2,
      hbehind₂ _ (by omega), hbehind₂ _ (by omega)]
    exact ⟨rfl, rfl⟩
  case outCount =>
    rw [hbefore₅ _ (by omega), ← hmem₄, update_self, houtside₃ _ (by omega),
      hbehind₂ _ (by omega)]
  case outCluster =>
    intro k hk
    rw [hwrite]
    dsimp only
    rw [(hout₅ k hk).1, (hout₅ k hk).2, hbehind₄ _ (by omega), hbehind₄ _ (by omega)]
    exact ⟨rfl, rfl⟩

theorem carriesRequest_of_reaches {frame : ZdpFrame} (hapart : param.Apart)
    (hreaches : (zbZdoMatchDescReq param).Reaches frame) :
    frame.CarriesRequest param := by
  obtain ⟨hbefore, hafter⟩ := hapart
  have hsize : ioBufSize = 148 := rfl
  have htail : param.tail = 148 - (8 + 2 * param.num) := rfl
  have hcopy (i : ℕ) (hi : i < 6 + 2 * param.num) :
      param.copied (param.tail + i) = param.mem (param.dataOffset + i) :=
    zbMemcpy_inside _ _ _ (by omega) (by omega)
  have hin : (param.copied (param.tail + 4)).toNat = param.numInClusters :=
    congrArg UInt8.toNat (hcopy 4 (by omega))
  have hout : (param.copied (param.tail + 5)).toNat = param.numOutClusters :=
    congrArg UInt8.toNat (hcopy 5 (by omega))
  have hnum : param.numInClusters + param.numOutClusters = param.num := rfl
  have hlen : (zbZdoMatchDescReq param).len = 6 + 2 * param.num := by
    rw [← hnum, ← hin, ← hout]
    rfl
  obtain ⟨body, hbody⟩ : ∃ body : ℕ,
      (zbZdoMatchDescReq param).dataOffset = body ∧ body + param.num = 71 := by
    refine ⟨_, rfl, ?_⟩
    change (148 - (zbZdoMatchDescReq param).len) / 2 + param.num = 71
    omega
  have hmem : (zbZdoMatchDescReq param).mem =
      writeMatchDesc param.copied body param.tail := by
    rw [← hbody.1]
    rfl
  obtain ⟨hheader, hinCount, hinCluster, houtCount, houtCluster⟩ :=
    requestAt_writeMatchDesc body hin hout (by omega)
  rw [MatchDescSent.Reaches, hlen, hbody.1, hmem] at hreaches
  -- a number of two bytes which were exchanged
  have hword (i j : ℕ) (hi : i + 1 < 6 + 2 * param.num) (hj : j + 1 < 6 + 2 * param.num)
      (hexchanged : writeMatchDesc param.copied body param.tail (body + i) =
            param.copied (param.tail + j + 1) ∧
          writeMatchDesc param.copied body param.tail (body + i + 1) =
            param.copied (param.tail + j)) :
      frame.word (1 + i) = hostWord param.mem (param.dataOffset + j) := by
    have hlow := hreaches i (by omega)
    have hhigh := hreaches (i + 1) (by omega)
    have hj₁ := hcopy (j + 1) hj
    push_cast at hhigh hj₁
    rw [← add_assoc 1 i 1, ← add_assoc (body : ℤ)] at hhigh
    rw [← add_assoc, ← add_assoc] at hj₁
    rw [ZdpFrame.word, hlow, hhigh, hexchanged.1, hexchanged.2, hj₁,
      hcopy j (by omega), hostWord]
    omega
  have hnumIn : frame.matchNumIn = param.numInClusters := by
    rw [ZdpFrame.matchNumIn, ← hin, ← hinCount]
    exact congrArg UInt8.toNat (hreaches 4 (by omega))
  constructor
  case nwkAddr => exact hword 0 0 (by omega) (by omega) (hheader 0 (by omega))
  case profileId => exact hword 2 2 (by omega) (by omega) (hheader 1 (by omega))
  case numIn => exact hnumIn
  case numOut =>
    have hbyte := hreaches (5 + 2 * param.numInClusters) (by omega)
    push_cast at hbyte
    rw [← add_assoc, ← add_assoc, houtCount] at hbyte
    rw [ZdpFrame.matchNumOut, hnumIn, ← hout, ← hbyte]
  case inCluster =>
    intro k hk
    have hcluster := hword (5 + 2 * k) (6 + 2 * k) (by omega) (by omega)
      (by push_cast; simpa only [add_assoc] using hinCluster k hk)
    rw [← add_assoc] at hcluster
    rw [hcluster, MatchDescParam.cluster]
    push_cast
    rw [add_assoc]
  case outCluster =>
    intro k hk
    have hcluster := hword (6 + 2 * param.numInClusters + 2 * k)
      (6 + 2 * (param.numInClusters + k)) (by omega) (by omega)
      (by push_cast; simpa only [add_assoc, mul_add] using houtCluster k hk)
    rw [← add_assoc, ← add_assoc] at hcluster
    rw [hcluster, MatchDescParam.cluster]
    push_cast
    rw [add_assoc]

end Client

/-! ## The server -/

def MatchDescRun.endpoints (run : MatchDescRun) : List UInt8 :=
  (List.range run.eps.epNum).map run.eps.epList

def SimpleDesc.Matches (desc : SimpleDesc) (param : MatchDescParam) : Prop :=
  desc.appProfileId = param.profileId ∧
    ((∃ cluster ∈ desc.appInputClusters, cluster ∈ param.inClusters) ∨
      ∃ cluster ∈ desc.appOutputClusters, cluster ∈ param.outClusters)

structure MatchDescRun.Exact
    (run : MatchDescRun) (descs : SimpleDescList) (param : MatchDescParam) :
    Prop where
  increasing : run.endpoints.Pairwise (· < ·)
  mem_iff : ∀ endpoint, endpoint ∈ run.endpoints ↔
    ∃ desc ∈ descs.list, desc.Matches param ∧ desc.endpoint = endpoint
  status : run.status = .success ↔ run.endpoints ≠ []

section Server

variable {frame : ZdpFrame} {param : MatchDescParam} {shortAddress : ℕ}
  {descs : SimpleDescList} {stack : ℕ → UInt8}

theorem offers_iff_matches (desc : SimpleDesc) :
    desc.offers param.profileId param.inClusters param.outClusters = true ↔
      desc.Matches param := by
  rw [SimpleDesc.offers, SimpleDesc.Matches]
  simp

/-- `cluster_id[k]` -/
def ZdpFrame.matchCluster (frame : ZdpFrame) (k : ℕ) : ℕ :=
  let mem := (copyClusterId frame.mem frame.matchTail (frame.dataOffset + 6)
    frame.matchNumIn).1
  let apsBody := frame.matchTail + 2 * frame.matchNumIn + 1
  let mem := (copyClusterId mem (frame.matchTail + 2 * frame.matchNumIn)
    apsBody frame.matchNumOut).1
  hostWord mem (frame.matchTail + 2 * k)

/-- The lists lie in the frame, and the input clusters end before the place
which is taken for both lists. -/
structure ZdpFrame.RoomForLists (frame : ZdpFrame) : Prop where
  inside : 7 + 2 * (frame.matchNumIn + frame.matchNumOut) ≤ frame.len
  apart : frame.dataOffset + 4 * frame.matchNumIn + 2 * frame.matchNumOut + 6 ≤
    ioBufSize

/-- What stands in the array for the output clusters of the request: the words
from one byte behind the place of their copy on. -/
def ZdpFrame.staleClusters (frame : ZdpFrame) : List ℕ :=
  (List.range frame.matchNumOut).map fun k =>
    let address := frame.matchTail + 2 * (frame.matchNumIn + k : ℕ) + 1
    (frame.mem address).toNat + 256 * (frame.mem (address + 1)).toNat

/-- An endpoint which the place 0 of the list holds before is not added; the
output clusters are looked for among the stale ones. -/
structure SimpleDesc.Spared (desc : SimpleDesc) (param : MatchDescParam) (frame : ZdpFrame)
    (held : UInt8) : Prop where
  matching : desc.Matches param → held ≠ desc.endpoint ∧
    ((∃ cluster ∈ desc.appInputClusters, cluster ∈ param.inClusters) ∨
      ∃ cluster ∈ desc.appOutputClusters, cluster ∈ frame.staleClusters)
  other : ¬ desc.Matches param → desc.appProfileId = param.profileId →
    (∃ cluster ∈ desc.appOutputClusters, cluster ∈ frame.staleClusters) →
      held = desc.endpoint

theorem spared_iff {desc : SimpleDesc} {held : UInt8} : desc.Spared param frame held ↔
      (desc.Matches param ↔
        desc.offers param.profileId param.inClusters frame.staleClusters = true ∧
          held ≠ desc.endpoint) := by
  have hoffers : desc.offers param.profileId param.inClusters
      frame.staleClusters = true ↔ desc.appProfileId = param.profileId ∧
        ((∃ cluster ∈ desc.appInputClusters, cluster ∈ param.inClusters) ∨
          ∃ cluster ∈ desc.appOutputClusters, cluster ∈ frame.staleClusters) := by
    rw [SimpleDesc.offers]
    simp
  rw [hoffers]
  constructor
  · rintro ⟨hmatching, hother⟩
    constructor
    · intro hmatches
      exact ⟨⟨hmatches.1, (hmatching hmatches).2⟩, (hmatching hmatches).1⟩
    · rintro ⟨⟨hprofile, hshared⟩, hheld⟩
      by_contra hmatches
      refine hheld (hother hmatches hprofile (hshared.resolve_left ?_))
      exact fun hin => hmatches ⟨hprofile, .inl hin⟩
  · intro hiff
    refine ⟨fun hmatches => ?_, fun hmatches hprofile hout => ?_⟩
    · exact ⟨(hiff.mp hmatches).2, (hiff.mp hmatches).1.2⟩
    · by_contra hheld
      exact hmatches (hiff.mpr ⟨⟨hprofile, .inr hout⟩, hheld⟩)

theorem hostWord_eq_word {mem : ℤ → UInt8} {a : ℤ} {index : ℕ}
    (hlow : mem a = frame.mem (frame.dataOffset + index + 1))
    (hhigh : mem (a + 1) = frame.mem (frame.dataOffset + index)) :
    hostWord mem a = frame.word index := by
  rw [hostWord, hlow, hhigh, ZdpFrame.word, ZdpFrame.byte, ZdpFrame.byte]
  push_cast
  rw [← add_assoc]
  omega

theorem matchCluster_eq_word (hroom : frame.RoomForLists) {k : ℕ}
    (hk : k < frame.matchNumIn) :
    frame.matchCluster k = frame.word (6 + 2 * k) := by
  obtain ⟨hlen, hapart⟩ := hroom
  have hframe := frame.fits
  have hsize : ioBufSize = 148 := rfl
  have htail : frame.matchTail =
      148 - ↑((frame.matchNumIn + frame.matchNumOut) * 2 % 256) := rfl
  rw [Nat.mod_eq_of_lt (by omega)] at htail
  obtain ⟨hlow, hhigh⟩ := copyClusterId_inside frame.mem frame.matchTail
    (frame.dataOffset + 6) hk (by omega)
  refine hostWord_eq_word ?_ ?_
  · rw [copyClusterId_outside _ _ _ (by omega), hlow]
    push_cast
    rw [← add_assoc]
  · rw [copyClusterId_outside _ _ _ (by omega), hhigh]
    push_cast
    rw [← add_assoc]

theorem map_matchCluster_eq_staleClusters : ((List.range frame.matchNumOut).map fun k =>
      frame.matchCluster (frame.matchNumIn + k)) = frame.staleClusters := by
  rw [ZdpFrame.staleClusters]
  refine map_congr_left fun k hk => ?_
  obtain ⟨hhigh, hlow⟩ := copyClusterId_shifted
    (copyClusterId frame.mem frame.matchTail (frame.dataOffset + 6)
      frame.matchNumIn).1 (frame.matchTail + 2 * frame.matchNumIn)
    (mem_range.mp hk)
  have hplace : frame.matchTail + 2 * ((frame.matchNumIn + k : ℕ) : ℤ) =
      frame.matchTail + 2 * frame.matchNumIn + 2 * k := by
    push_cast
    omega
  rw [ZdpFrame.matchCluster, hostWord]
  dsimp only
  rw [hplace, hhigh, hlow, copyClusterId_outside _ _ _ (by omega),
    copyClusterId_outside _ _ _ (by omega), add_assoc _ (1 : ℤ) 1, Nat.add_comm]
  rfl

theorem eps_zdoMatchDescRes
    (hcarries : frame.CarriesRequest param) (hroom : frame.RoomForLists)
    (haddressed : shortAddress = param.nwkAddr ∨
      param.nwkAddr = nwkBroadcastRxOnWhenIdle) :
    (zdoMatchDescRes shortAddress descs stack frame).eps =
      descs.list.foldl (fun eps desc =>
        if desc.offers param.profileId param.inClusters frame.staleClusters then
          eps.addEpSorted desc.endpoint else eps) ⟨stack, 0, []⟩ := by
  obtain ⟨hnwkAddr, hprofileId, hnumIn, -, hin⟩ := hcarries
  have hrun : (zdoMatchDescRes shortAddress descs stack frame).eps =
      if shortAddress ≠ frame.word 1 ∧
          frame.word 1 ≠ nwkBroadcastRxOnWhenIdle then ⟨stack, 0, []⟩
      else
        descs.list.foldl (fun eps desc =>
          if desc.offers (frame.word 3)
              ((List.range frame.matchNumIn).map frame.matchCluster)
              ((List.range frame.matchNumOut).map fun k =>
                frame.matchCluster (frame.matchNumIn + k)) then
            eps.addEpSorted desc.endpoint else eps) ⟨stack, 0, []⟩ := rfl
  have hinClusters : (List.range frame.matchNumIn).map frame.matchCluster =
      param.inClusters := by
    rw [MatchDescParam.inClusters, ← hnumIn]
    refine map_congr_left fun k hk => ?_
    rw [matchCluster_eq_word hroom (mem_range.mp hk)]
    exact hin k (hnumIn ▸ mem_range.mp hk)
  rw [hrun, hnwkAddr, hprofileId, hinClusters, map_matchCluster_eq_staleClusters,
    if_neg (by omega)]

/-- One descriptor is added at place 0, unless its endpoint is what the list
held there before. -/
theorem endpoints_foldl
    (stack : ℕ → UInt8) (list : List SimpleDesc) (offers : SimpleDesc → Bool)
    (hlength : list.length ≤ maxEpNumber) :
    let eps : EpList := list.foldl (fun eps desc =>
      if offers desc then eps.addEpSorted desc.endpoint else eps) ⟨stack, 0, []⟩
    (List.range eps.epNum).map eps.epList =
      (list.filter fun desc => offers desc && stack 0 != desc.endpoint).map
        SimpleDesc.endpoint := by
  match list, hlength with
  | [], _ => rfl
  | [desc], _ =>
    dsimp only [foldl_cons, foldl_nil]
    cases hoffers : offers desc with
    | false => simp [hoffers]
    | true =>
      by_cases hstack : stack 0 = desc.endpoint
      · simp [hoffers, EpList.addEpSorted, hstack]
      · simp [hoffers, EpList.addEpSorted, EpList.shift, hstack]
  | _ :: _ :: _, hlength => exact absurd hlength (by simp [maxEpNumber])

theorem SimpleDescList.eq_of_mem {desc other : SimpleDesc} (hdesc : desc ∈ descs.list)
    (hother : other ∈ descs.list) : desc = other := by
  obtain ⟨list, hlength⟩ := descs
  match list, hlength with
  | [_], _ => rw [mem_singleton.mp hdesc, mem_singleton.mp hother]
  | _ :: _ :: _, hlength => exact absurd hlength (by simp [maxEpNumber])

theorem exact_zdoMatchDescRes_iff
    (hcarries : frame.CarriesRequest param) (hroom : frame.RoomForLists)
    (haddressed : shortAddress = param.nwkAddr ∨
      param.nwkAddr = nwkBroadcastRxOnWhenIdle) :
    (zdoMatchDescRes shortAddress descs stack frame).Exact descs param ↔
      ∀ desc ∈ descs.list, desc.Spared param frame (stack 0) := by
  have heps : (zdoMatchDescRes shortAddress descs stack frame).eps = _ :=
    eps_zdoMatchDescRes hcarries hroom haddressed
  have hendpoints := endpoints_foldl stack descs.list
    (SimpleDesc.offers · param.profileId param.inClusters frame.staleClusters)
    descs.length_le
  dsimp only at hendpoints
  rw [← heps] at hendpoints
  have hstatus : (zdoMatchDescRes shortAddress descs stack frame).status =
      if (zdoMatchDescRes shortAddress descs stack frame).eps.epNum = 0 then
        .noDescriptor else .success := rfl
  generalize zdoMatchDescRes shortAddress descs stack frame = run at hendpoints hstatus ⊢
  have hmem (endpoint : UInt8) : endpoint ∈ run.endpoints ↔ ∃ desc ∈ descs.list,
        (desc.offers param.profileId param.inClusters frame.staleClusters = true ∧
          stack 0 ≠ desc.endpoint) ∧
        desc.endpoint = endpoint := by
    rw [MatchDescRun.endpoints, hendpoints]
    simp [and_assoc]
  constructor
  · intro hexact desc hdesc
    rw [spared_iff]
    constructor
    · intro hmatches
      obtain ⟨other, hother, hfound, -⟩ := (hmem desc.endpoint).mp
        ((hexact.mem_iff _).mpr ⟨desc, hdesc, hmatches, rfl⟩)
      rwa [SimpleDescList.eq_of_mem hdesc hother]
    · intro hfound
      obtain ⟨other, hother, hmatches, -⟩ := (hexact.mem_iff _).mp
        ((hmem desc.endpoint).mpr ⟨desc, hdesc, hfound, rfl⟩)
      rwa [SimpleDescList.eq_of_mem hdesc hother]
  · intro hspared
    refine ⟨?_, fun endpoint => ?_, ?_⟩
    · have hlength : run.endpoints.length ≤ 1 := by
        rw [MatchDescRun.endpoints, hendpoints, length_map]
        exact (length_filter_le _ _).trans descs.length_le
      match hlist : run.endpoints with
      | [] => exact Pairwise.nil
      | [_] => exact pairwise_singleton _ _
      | _ :: _ :: _ => simp [hlist] at hlength
    · rw [hmem]
      refine exists_congr fun desc => and_congr_right fun hdesc => ?_
      rw [spared_iff.mp (hspared desc hdesc)]
    · rw [hstatus, MatchDescRun.endpoints]
      split
      · rename_i hnone
        simp [hnone]
      · rename_i hsome
        exact iff_of_true rfl (by simpa using hsome)

end Server

/-- A request whose lists are nowhere copied over what is still to be read is
answered exactly if and only if each descriptor is spared. -/
theorem matchDesc_exact_iff (param : MatchDescParam) (frame : ZdpFrame) (shortAddress : ℕ)
    (descs : SimpleDescList) (stack : ℕ → UInt8)
    (hapart : param.Apart) (hreaches : (zbZdoMatchDescReq param).Reaches frame)
    (hroom : frame.RoomForLists)
    (haddressed : shortAddress = param.nwkAddr ∨
      param.nwkAddr = nwkBroadcastRxOnWhenIdle) :
    (zdoMatchDescRes shortAddress descs stack frame).Exact descs param ↔
      ∀ desc ∈ descs.list, desc.Spared param frame (stack 0) :=
  exact_zdoMatchDescRes_iff (carriesRequest_of_reaches hapart hreaches) hroom
    haddressed

/-- Two input and two output clusters of the profile 0x0104, asked for at the
device 0. -/
def onOffParam : MatchDescParam where
  mem a := [0, 0, 1, 4, 2, 2, 0, 3, 0, 6, 0, 8, 0, 10].getD a.toNat 0
  dataOffset := 0

def onOffFrame : ZdpFrame where
  mem a := [7, 0, 0, 4, 1, 2, 3, 0, 6, 0, 2, 8, 0, 10, 0].getD a.toNat 0
  dataOffset := 0
  len := 15
  fits := by decide

def onOffDescs : SimpleDescList where
  list := [⟨1, 0x0104, [5, 6], [8]⟩]
  length_le := Nat.le_refl 1

def switchDescs : SimpleDescList where
  list := [⟨1, 0x0104, [], [8, 10]⟩]
  length_le := Nat.le_refl 1

theorem onOff_fits : onOffParam.Apart ∧ (zbZdoMatchDescReq onOffParam).Reaches onOffFrame ∧
      onOffFrame.RoomForLists ∧ onOffParam.nwkAddr = 0 := by
  refine ⟨⟨by decide, by decide⟩, ?_, ⟨by decide, by decide⟩, by decide⟩
  unfold MatchDescSent.Reaches
  decide +kernel

theorem matchDesc_exact_iff_onOff :
    (zdoMatchDescRes 0 onOffDescs (fun _ => 0) onOffFrame).Exact onOffDescs onOffParam ↔
      ∀ desc ∈ onOffDescs.list, desc.Spared onOffParam onOffFrame 0 :=
  matchDesc_exact_iff onOffParam onOffFrame 0 onOffDescs (fun _ => 0)
    onOff_fits.1 onOff_fits.2.1 onOff_fits.2.2.1
    (Or.inl onOff_fits.2.2.2.symm)

/-- Both output clusters of the endpoint 1 are asked for, and it is not in the
response. -/
theorem not_exact_outputClusters :
    ¬ (zdoMatchDescRes 0 switchDescs (fun _ => 0) onOffFrame).Exact switchDescs
      onOffParam := by
  obtain ⟨hapart, hreaches, hroom, haddress⟩ := onOff_fits
  rw [exact_zdoMatchDescRes_iff (carriesRequest_of_reaches hapart hreaches)
    hroom (Or.inl haddress.symm)]
  intro hspared
  have hmatches : (⟨1, 0x0104, [], [8, 10]⟩ : SimpleDesc).Matches onOffParam :=
    (offers_iff_matches _).mp (by decide +kernel)
  have hoffers := ((spared_iff.mp (hspared _ mem_cons_self)).mp hmatches).1
  exact absurd hoffers (by decide +kernel)

end Zboss
