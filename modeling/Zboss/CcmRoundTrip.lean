import Zboss.CcmStar

/-!
# CCM* round trip

The loops compute the modes of operation of the standard: a chain of blocks for
the tag, a stream for the text and one for the tag. An encrypted buffer is
decrypted to what was encrypted, for every cipher.
-/

namespace Zboss

open Option BlockCipherMode BoundedMemory

theorem xor_cancel (s x : UInt8) : s ^^^ (s ^^^ x) = x := by
  rw [← UInt8.xor_assoc, UInt8.xor_self, UInt8.zero_xor]

theorem authLoop_eq_chain
    (aes128 : Aes128) (key : CcmKey) (t : CcmBlock) (p : List UInt8) :
    authLoop aes128 key t p =
      chain (aes128 key) xor16 t (paddedBlocks 16 0 p) := by
  induction t, p using authLoop.induct aes128 key with
  | case1 t p hfull ih =>
    have hne : p ≠ [] := by
      rintro rfl
      simp at hfull
    rw [authLoop, if_pos hfull, ih, paddedBlocks_of_ne_nil 0 hne, chain_cons, blockAt]
  | case2 t p hshort hne =>
    have hdrop : p.drop 16 = [] := by
      rw [List.drop_eq_nil_iff]
      omega
    rw [authLoop, if_neg hshort, if_pos hne, paddedBlocks_of_ne_nil 0 hne,
      hdrop, paddedBlocks_nil, chain_cons, chain_nil, blockAt]
  | case3 t p hshort hempty =>
    rw [not_not] at hempty
    subst hempty
    rw [authLoop, if_neg (by simp), if_neg (by simp), paddedBlocks_nil, chain_nil]

/-- The authentication transformation of the standard: the chain over the
first block, the blocks of `L(a) || a` and those of `m`. -/
theorem authTrans_eq_chain (ccmM : ℕ) (aes128 : Aes128) (key : CcmKey) (nonce : CcmNonce)
    (stringA stringM : List UInt8) :
    authTrans ccmM aes128 key nonce stringA stringM =
      chain (aes128 key) xor16 (Vector.replicate 16 0)
        (nonceBlock (authFlags ccmM) nonce (UInt16.ofNat stringM.length) ::
          (paddedBlocks 16 0 (htobe16 (UInt16.ofNat stringA.length) ++ stringA) ++
            paddedBlocks 16 0 stringM)) := by
  have hzero : ∀ b : CcmBlock, xor16 (Vector.replicate 16 0) b = b := by
    intro b
    ext i hi
    simp [xor16]
  have hfirst : blockAt (htobe16 (UInt16.ofNat stringA.length) ++ stringA.take 14) =
        paddedBlock 16 0 (htobe16 (UInt16.ofNat stringA.length) ++ stringA) := by
    rw [← paddedBlock_take 0 (htobe16 _ ++ stringA)]
    rfl
  have hrest : (htobe16 (UInt16.ofNat stringA.length) ++ stringA).drop 16 =
        stringA.drop 14 := rfl
  rw [chain_cons, hzero, chain_append,
    paddedBlocks_of_ne_nil 0 (by simp [htobe16]), chain_cons, hrest,
    ← authLoop_eq_chain, ← authLoop_eq_chain, ← hfirst]
  rfl

def ccmStream (aes128 : Aes128) (key : CcmKey) (nonce : CcmNonce) (i : UInt16) :
    ℕ → UInt8 :=
  keystream fun k => aes128 key (counterBlock nonce (i + UInt16.ofNat k))

def xorStream (stream : ℕ → UInt8) (text : List UInt8) : List UInt8 :=
  combine (fun s x => s ^^^ x) stream text

@[simp] theorem length_xorStream (stream : ℕ → UInt8) (text : List UInt8) :
    (xorStream stream text).length = text.length :=
  length_combine _ _ _

theorem xorStream_xorStream (stream : ℕ → UInt8) (text : List UInt8) :
    xorStream stream (xorStream stream text) = text :=
  combine_combine xor_cancel stream text

theorem take_xor16 (aes128 : Aes128) (key : CcmKey) (nonce : CcmNonce) (i : UInt16)
    {text : List UInt8} (hlength : text.length ≤ 16) :
    (xor16 (aes128 key (counterBlock nonce i)) (blockAt text)).toList.take text.length =
      xorStream (ccmStream aes128 key nonce i) text := by
  have hblock := combine_keystream_block (fun s x : UInt8 => s ^^^ x)
    (fun k => aes128 key (counterBlock nonce (i + UInt16.ofNat k))) 0 hlength
  have hzero : i + UInt16.ofNat 0 = i := by simp
  rw [hzero] at hblock
  exact hblock.symm

theorem xorStream_of_le (aes128 : Aes128) (key : CcmKey) (nonce : CcmNonce) (i : UInt16)
    {text : List UInt8} (hlength : 16 ≤ text.length) :
    xorStream (ccmStream aes128 key nonce i) text =
      (xor16 (aes128 key (counterBlock nonce i)) (blockAt text)).toList ++
        xorStream (ccmStream aes128 key nonce (i + 1)) (text.drop 16) := by
  have htake : (text.take 16).length = 16 := by
    rw [List.length_take]
    omega
  have hshift : (fun j => ccmStream aes128 key nonce i (j + 16)) =
        ccmStream aes128 key nonce (i + 1) := by
    have hblocks : (fun k => aes128 key (counterBlock nonce (i + UInt16.ofNat (k + 1)))) =
          fun k => aes128 key (counterBlock nonce (i + 1 + UInt16.ofNat k)) := by
      funext k
      rw [UInt16.ofNat_add, UInt16.add_assoc, UInt16.add_comm 1]
      rfl
    funext j
    rw [ccmStream, keystream_add, hblocks, ccmStream]
  have hfirst := take_xor16 aes128 key nonce i (le_of_eq htake)
  rw [htake, List.take_of_length_le (by simp), blockAt, paddedBlock_take]
    at hfirst
  rw [xorStream, ← hshift, blockAt, hfirst, xorStream, xorStream]
  conv_lhs => rw [← List.take_append_drop 16 text]
  rw [combine_append, htake]

theorem encryptLoop_spec {size : ℕ} (aes128 : Aes128) (key : CcmKey) (nonce : CcmNonce)
    (encrypted : Vector UInt8 size) (pe : ℕ) (p : List UInt8) (i : UInt16)
    (hroom : pe + p.length + 16 ≤ size) :
    ∃ encrypted', encryptLoop aes128 key nonce encrypted pe p i =
          some (encrypted', pe + p.length) ∧
        window encrypted' pe p.length = xorStream (ccmStream aes128 key nonce i) p ∧
        ∀ first count, first + count ≤ pe →
          window encrypted' first count = window encrypted first count := by
  induction hlength : p.length using Nat.strong_induction_on
    generalizing encrypted pe p i with
  | _ n ih =>
    subst hlength
    have hblock : ∀ block : CcmBlock, pe + block.toList.length ≤ size := by
      intro block
      simp
      omega
    rw [encryptLoop]
    obtain ⟨stored, hstored⟩ := @store_of_le _ _ encrypted _ _
      (hblock (xor16 (aes128 key (counterBlock nonce i)) (blockAt p)))
    have hbefore : ∀ first count, first + count ≤ pe →
        window stored first count = window encrypted first count :=
      fun first count hle => window_store_disjoint hstored (Or.inl hle)
    by_cases hfull : 16 ≤ p.length
    · have hdrop : (p.drop 16).length = p.length - 16 := List.length_drop
      obtain ⟨encrypted', hloop, htext, hframe⟩ :=
        ih (p.drop 16).length (by omega) stored (pe + 16) (p.drop 16) (i + 1)
          (by omega) rfl
      have hend : pe + 16 + (p.drop 16).length = pe + p.length := by omega
      refine ⟨encrypted', ?_, ?_, ?_⟩
      · simp only [if_pos hfull, hstored, bind_eq_bind, bind_some, hloop, hend]
      · have hsame := window_store_same hstored
        rw [Vector.length_toList] at hsame
        have hsplit : p.length = 16 + (p.drop 16).length := by omega
        rw [hsplit, window_add, hframe pe 16 (Nat.le_refl _), hsame, htext,
          xorStream_of_le aes128 key nonce i hfull]
      · intro first count hle
        rw [hframe first count (by omega), hbefore first count hle]
    · by_cases hne : p = []
      · subst hne
        exact ⟨encrypted, by simp, rfl, fun _ _ _ => rfl⟩
      · refine ⟨stored, ?_, ?_, hbefore⟩
        · simp [hfull, hne, hstored]
        · rw [window_store_take hstored (by simp; omega),
            take_xor16 aes128 key nonce i (by omega)]

theorem encryptLoop_end {size : ℕ} {aes128 : Aes128} {key : CcmKey} {nonce : CcmNonce}
    {encrypted encrypted' : Vector UInt8 size} {pe pe' : ℕ} {p : List UInt8}
    {i : UInt16}
    (hloop : encryptLoop aes128 key nonce encrypted pe p i = some (encrypted', pe')) :
    pe' = pe + p.length := by
  induction hlength : p.length using Nat.strong_induction_on
    generalizing encrypted pe p i with
  | _ n ih =>
    subst hlength
    rw [encryptLoop] at hloop
    split at hloop
    · obtain ⟨stored, _, hrest⟩ := bind_eq_some_iff.mp hloop
      have hdrop : (p.drop 16).length = p.length - 16 := List.length_drop
      have hend := ih (p.drop 16).length (by omega) hrest rfl
      omega
    · split at hloop
      · obtain ⟨stored, _, hrest⟩ := bind_eq_some_iff.mp hloop
        simp only [some.injEq, Prod.mk.injEq] at hrest
        exact hrest.2.symm
      · rename_i hempty
        rw [not_not] at hempty
        simp only [some.injEq, Prod.mk.injEq] at hloop
        simp [hempty, hloop.2]

theorem encryptTrans_spec {size : ℕ} (aes128 : Aes128) (key : CcmKey) (nonce : CcmNonce)
    {stringM t : List UInt8} (encrypted : Vector UInt8 size) {pe : ℕ}
    (htag : zbCcmM ≤ t.length) (hroom : pe + stringM.length + 16 ≤ size) :
    ∃ encrypted', encryptTrans zbCcmM aes128 key nonce stringM t encrypted pe =
          some encrypted' ∧
        window encrypted' pe stringM.length =
          xorStream (ccmStream aes128 key nonce 1) stringM ∧
        window encrypted' (pe + stringM.length) zbCcmM =
          xorStream (ccmStream aes128 key nonce 0) (t.take zbCcmM) ∧
        ∀ first count, first + count ≤ pe →
          window encrypted' first count = window encrypted first count := by
  obtain ⟨looped, hloop, htext, hframe⟩ :=
    encryptLoop_spec aes128 key nonce encrypted pe stringM 1 hroom
  have hblock : ∀ block : CcmBlock,
      pe + stringM.length + block.toList.length ≤ size := by
    intro block
    simpa using hroom
  obtain ⟨stored, hstored⟩ := @store_of_le _ _ looped _ _
    (hblock (xor16 (aes128 key (counterBlock nonce 0)) (blockAt (t.take zbCcmM))))
  have htake : (t.take zbCcmM).length = zbCcmM := List.length_take_of_le htag
  refine ⟨stored, ?_, ?_, ?_, ?_⟩
  · simp only [encryptTrans, hloop, bind_eq_bind, bind_some, hstored]
  · rw [window_store_disjoint hstored (Or.inl (Nat.le_refl _)), htext]
  · have hcount : zbCcmM ≤ (xor16 (aes128 key (counterBlock nonce 0))
        (blockAt (t.take zbCcmM))).toList.length := by
      simp [zbCcmM]
    rw [window_store_take hstored hcount,
      ← take_xor16 aes128 key nonce 0 (by simp [zbCcmM]), htake]
  · intro first count hle
    rw [window_store_disjoint hstored (Or.inl (by omega)), hframe first count hle]

theorem encryptTrans_eq_none {size : ℕ} (aes128 : Aes128) (key : CcmKey) (nonce : CcmNonce)
    {stringM t : List UInt8} (encrypted : Vector UInt8 size) {pe : ℕ}
    (hover : size < pe + stringM.length + 16) :
    encryptTrans zbCcmM aes128 key nonce stringM t encrypted pe = none := by
  rw [Option.eq_none_iff_forall_ne_some]
  intro encrypted' hsome
  obtain ⟨⟨looped, pe'⟩, hloop, hstore⟩ := bind_eq_some_iff.mp hsome
  have hend := encryptLoop_end hloop
  have hroom := le_of_store hstore
  simp only [hend, Vector.length_toList] at hroom
  omega

/-! ## The entry points -/

def ccmTag (aes128 : Aes128) (key : CcmKey) (nonce : CcmNonce)
    (stringA stringM : List UInt8) : List UInt8 :=
  (authTrans zbCcmM aes128 key nonce stringA stringM).toList.take zbCcmM

def ccmCiphertext (aes128 : Aes128) (key : CcmKey) (nonce : CcmNonce)
    (stringA stringM : List UInt8) : List UInt8 :=
  xorStream (ccmStream aes128 key nonce 1) stringM ++
    xorStream (ccmStream aes128 key nonce 0) (ccmTag aes128 key nonce stringA stringM)

theorem length_ccmTag (aes128 : Aes128) (key : CcmKey) (nonce : CcmNonce)
    (stringA stringM : List UInt8) :
    (ccmTag aes128 key nonce stringA stringM).length = zbCcmM := by
  simp [ccmTag, zbCcmM]

theorem zbCcmEncryptNAuth_spec (aes128 : Aes128) (key : CcmKey) (nonce : CcmNonce)
    {stringA stringM : List UInt8} (cryptedText : Buf)
    (hlength : stringA.length + stringM.length + zbCcmM ≤ 125) :
    ∃ buf, zbCcmEncryptNAuth aes128 key nonce stringA stringM cryptedText = some buf ∧
        buf.Fits ∧
        buf.len.toNat = stringA.length + stringM.length + zbCcmM ∧
        buf.content =
          stringA ++ ccmCiphertext aes128 key nonce stringA stringM := by
  have hsize : stringA.length + stringM.length + zbCcmM < ioBufSize := by
    simp only [ioBufSize]
    omega
  obtain ⟨alloc, halloc, hlen, hoffset⟩ := zbBufInitialAlloc_of_lt cryptedText hsize
  -- the block with the tag ends inside the buffer
  have hend : alloc.dataOffset.toNat + stringA.length + stringM.length + 16 ≤
      ioBufSize := by
    rw [hoffset]
    simp only [ioBufSize, zbCcmM] at *
    omega
  have htag : zbCcmM ≤
      (authTrans zbCcmM aes128 key nonce stringA stringM).toList.length := by
    simp [zbCcmM]
  obtain ⟨encrypted, hencrypted, htext, hmic, _⟩ :=
    encryptTrans_spec aes128 key nonce alloc.buf htag hend
  have hroom : alloc.dataOffset.toNat + stringA.length ≤ ioBufSize := by omega
  obtain ⟨buf, hbuf⟩ := Buf.store_of_le { alloc with buf := encrypted } hroom
  obtain ⟨hstore, hlen', hoffset', _⟩ := Buf.store_eq_some hbuf
  dsimp only at hstore hlen' hoffset'
  rw [← hlen'] at hlen
  refine ⟨buf, ?_, ?_, hlen, ?_⟩
  · simp only [zbCcmEncryptNAuth, halloc, hencrypted, bind_eq_bind, bind_some, hbuf]
  · rw [Buf.Fits, hoffset', hlen]
    simp only [zbCcmM]
    omega
  · have hbehind : ∀ count,
        window buf.buf (alloc.dataOffset.toNat + stringA.length) count =
          window encrypted (alloc.dataOffset.toNat + stringA.length) count :=
      fun count => window_store_disjoint hstore (Or.inr (Nat.le_refl _))
    rw [Buf.content, hoffset', hlen, Nat.add_assoc, window_add,
      window_store_same hstore, hbehind, window_add, htext, hmic]
    rfl

theorem zbCcmEncryptNAuth_eq_none (aes128 : Aes128) (key : CcmKey) (nonce : CcmNonce)
    {stringA stringM : List UInt8} (cryptedText : Buf)
    (hlength : 125 < stringA.length + stringM.length + zbCcmM) :
    zbCcmEncryptNAuth aes128 key nonce stringA stringM cryptedText = none := by
  rw [Option.eq_none_iff_forall_ne_some]
  intro buf hsome
  obtain ⟨alloc, halloc, hrest⟩ := bind_eq_some_iff.mp hsome
  obtain ⟨encrypted, hencrypted, _⟩ := bind_eq_some_iff.mp hrest
  have hover : ioBufSize <
      alloc.dataOffset.toNat + stringA.length + stringM.length + 16 := by
    unfold zbBufInitialAlloc at halloc
    split at halloc
    · rename_i hsize
      rw [← some.inj halloc]
      simp only [UInt8.toNat_ofNat', ioBufSize, zbCcmM] at *
      omega
    · contradiction
  rw [encryptTrans_eq_none aes128 key nonce alloc.buf hover] at hencrypted
  contradiction

theorem zbCcmDecryptNAuth_spec
    (aes128 : Aes128) (key : CcmKey) (nonce : CcmNonce) {buf : Buf}
    {stringA stringC u : List UInt8} (hfits : buf.Fits)
    (hcontent : buf.content = stringA ++ (stringC ++ u))
    (hu : u.length = zbCcmM) (hroom : stringC.length + 16 ≤ ioBufSize) :
    ∃ buf' ret, zbCcmDecryptNAuth aes128 key nonce buf stringA.length
            (stringC.length + zbCcmM) =
          some (buf', ret) ∧
        buf'.Fits ∧ buf'.dataOffset = buf.dataOffset ∧
        buf'.len.toNat = stringA.length + stringC.length ∧
        if xorStream (ccmStream aes128 key nonce 0) u = ccmTag aes128 key nonce stringA
              (xorStream (ccmStream aes128 key nonce 1) stringC) then
          ret = .ok () ∧ buf'.content =
              stringA ++ xorStream (ccmStream aes128 key nonce 1) stringC
        else
          ret = .error .error ∧ buf'.content =
              stringA ++ List.replicate stringC.length 0xeb := by
  have hlen : buf.len.toNat = stringA.length + (stringC.length + zbCcmM) := by
    rw [← Buf.length_content hfits, hcontent]
    simp [hu]
  have hend : buf.dataOffset.toNat +
      (stringA.length + (stringC.length + zbCcmM)) ≤ ioBufSize := by
    rw [← hlen]
    exact hfits
  -- the strings in the buffer
  have hsplit := hcontent
  rw [Buf.content, hlen, window_add, window_add] at hsplit
  obtain ⟨hwindowA, hwindowCU⟩ := List.append_inj hsplit (length_window (by omega))
  obtain ⟨hwindowC, hwindowU⟩ := List.append_inj hwindowCU (length_window (by omega))
  have hloadA : load buf.buf buf.dataOffset.toNat stringA.length =
      some stringA := load_eq_some_iff.mpr ⟨by omega, hwindowA⟩
  have hloadC : load buf.buf (buf.dataOffset.toNat + stringA.length)
      stringC.length = some stringC :=
    load_eq_some_iff.mpr ⟨by omega, hwindowC⟩
  have hloadU : load buf.buf
      (buf.dataOffset.toNat + stringA.length + stringC.length) zbCcmM =
      some u := load_eq_some_iff.mpr ⟨by omega, hwindowU⟩
  -- the scratch buffer
  obtain ⟨decrypted, hdecrypted, htext, htag, _⟩ :=
    @encryptTrans_spec _ aes128 key nonce stringC u
      (Vector.replicate ioBufSize (0 : UInt8)) 0 (le_of_eq hu.symm) (by omega)
  rw [Nat.zero_add, List.take_of_length_le (le_of_eq hu)] at htag
  have hloadM : load decrypted 0 stringC.length =
      some (xorStream (ccmStream aes128 key nonce 1) stringC) :=
    load_eq_some_iff.mpr ⟨by omega, htext⟩
  have hloadTag : load decrypted stringC.length zbCcmM =
      some (xorStream (ccmStream aes128 key nonce 0) u) :=
    load_eq_some_iff.mpr ⟨by simp only [zbCcmM]; omega, htag⟩
  -- what is written back
  have hwritten : ∀ text : List UInt8, text.length = stringC.length →
      ∃ buf', Buf.store { buf with len := buf.len - UInt8.ofNat zbCcmM }
            (buf.dataOffset.toNat + stringA.length) text = some buf' ∧
          buf'.Fits ∧ buf'.dataOffset = buf.dataOffset ∧
          buf'.len.toNat = stringA.length + stringC.length ∧
          buf'.content = stringA ++ text := by
    intro text hlength
    obtain ⟨buf', hbuf'⟩ :=
      Buf.store_of_le { buf with len := buf.len - UInt8.ofNat zbCcmM }
        (show buf.dataOffset.toNat + stringA.length + text.length ≤ ioBufSize by
          omega)
    obtain ⟨hstore, hlen', hoffset', _⟩ := Buf.store_eq_some hbuf'
    dsimp only at hstore hlen' hoffset'
    have hshort : buf'.len.toNat = stringA.length + stringC.length := by
      have hmic : (UInt8.ofNat zbCcmM).toNat = zbCcmM := rfl
      have hle : UInt8.ofNat zbCcmM ≤ buf.len := by
        rw [UInt8.le_iff_toNat_le, hlen, hmic]
        omega
      rw [hlen', UInt8.toNat_sub_of_le _ _ hle, hlen, hmic]
      omega
    refine ⟨buf', hbuf', ?_, hoffset', hshort, ?_⟩
    · rw [Buf.Fits, hshort, hoffset']
      omega
    · have hsame := window_store_same hstore
      rw [hlength] at hsame
      rw [Buf.content, hshort, hoffset', window_add, hsame,
        window_store_disjoint hstore (Or.inl (Nat.le_refl _)), hwindowA]
  have hlong : ¬ stringC.length + zbCcmM < zbCcmM := by omega
  have htextLength : stringC.length + zbCcmM - zbCcmM = stringC.length := by omega
  by_cases hmatch : xorStream (ccmStream aes128 key nonce 0) u =
      ccmTag aes128 key nonce stringA (xorStream (ccmStream aes128 key nonce 1) stringC)
  · obtain ⟨buf', hbuf', hfits', hoffset', hshort, hafter⟩ :=
      hwritten (xorStream (ccmStream aes128 key nonce 1) stringC) (by simp)
    refine ⟨buf', .ok (), ?_, hfits', hoffset', hshort, ?_⟩
    · rw [ccmTag] at hmatch
      simp only [zbCcmDecryptNAuth, if_neg hlong, htextLength, hloadC, hloadU,
        hdecrypted, hloadA, hloadM, hloadTag, bind_eq_bind,
        bind_some, if_pos hmatch, hbuf']
    · rw [if_pos hmatch]
      exact ⟨rfl, hafter⟩
  · obtain ⟨buf', hbuf', hfits', hoffset', hshort, hafter⟩ :=
      hwritten (List.replicate stringC.length 0xeb) (by simp)
    refine ⟨buf', .error .error, ?_, hfits', hoffset', hshort, ?_⟩
    · rw [ccmTag] at hmatch
      simp only [zbCcmDecryptNAuth, if_neg hlong, htextLength, hloadC, hloadU,
        hdecrypted, hloadA, hloadM, hloadTag, bind_eq_bind,
        bind_some, if_neg hmatch, hbuf']
    · rw [if_neg hmatch]
      exact ⟨rfl, hafter⟩

/-- What was encrypted is decrypted again, whatever the cipher, as long as no
buffer is overrun: up to 125 bytes of data and tag.  Longer data overrun the
packet buffer. -/
theorem zbCcm_roundTrip (aes128 : Aes128) (key : CcmKey) (nonce : CcmNonce)
    (stringA stringM : List UInt8) (cryptedText : Buf) :
    (stringA.length + stringM.length + zbCcmM ≤ 125 → ∃ buf buf',
        zbCcmEncryptNAuth aes128 key nonce stringA stringM cryptedText = some buf ∧
          zbCcmDecryptNAuth aes128 key nonce buf stringA.length (stringM.length + zbCcmM) =
            some (buf', .ok ()) ∧
          buf'.content = stringA ++ stringM ∧
          buf'.len.toNat + zbCcmM = buf.len.toNat) ∧
      (125 < stringA.length + stringM.length + zbCcmM →
        zbCcmEncryptNAuth aes128 key nonce stringA stringM cryptedText = none) := by
  constructor
  · intro hlength
    obtain ⟨buf, hbuf, hfits, hlen, hcontent⟩ :=
      zbCcmEncryptNAuth_spec aes128 key nonce cryptedText hlength
    have htagLength : (xorStream (ccmStream aes128 key nonce 0)
          (ccmTag aes128 key nonce stringA stringM)).length = zbCcmM := by
      rw [length_xorStream, length_ccmTag]
    have hroom : (xorStream (ccmStream aes128 key nonce 1) stringM).length + 16 ≤
          ioBufSize := by
      rw [length_xorStream]
      simp only [ioBufSize, zbCcmM] at *
      omega
    obtain ⟨buf', ret, hdecrypt, _, _, hlen', hret⟩ :=
      zbCcmDecryptNAuth_spec aes128 key nonce hfits hcontent htagLength hroom
    rw [xorStream_xorStream, xorStream_xorStream, if_pos rfl] at hret
    obtain ⟨rfl, hafter⟩ := hret
    rw [length_xorStream] at hdecrypt hlen'
    refine ⟨buf, buf', hbuf, hdecrypt, hafter, ?_⟩
    omega
  · intro hlength
    exact zbCcmEncryptNAuth_eq_none aes128 key nonce cryptedText hlength

theorem zbCcm_roundTrip_three (aes128 : Aes128) : ∃ buf buf',
      zbCcmEncryptNAuth aes128 (Vector.replicate 16 0) (Vector.replicate 13 0) [1, 2] [3]
          .zeroed = some buf ∧
        zbCcmDecryptNAuth aes128 (Vector.replicate 16 0) (Vector.replicate 13 0) buf 2 5 =
          some (buf', .ok ()) ∧
        buf'.content = [1, 2, 3] ∧ buf'.len.toNat + zbCcmM = buf.len.toNat :=
  (zbCcm_roundTrip aes128 (Vector.replicate 16 0) (Vector.replicate 13 0) [1, 2] [3]
    .zeroed).1 (by decide)

/-- A frame is accepted just if it is the encryption of the text which it is
decrypted to. -/
theorem zbCcmDecryptNAuth_ok_iff
    (aes128 : Aes128) (key : CcmKey) (nonce : CcmNonce) {buf : Buf}
    {stringA rest : List UInt8} (hfits : buf.Fits)
    (hcontent : buf.content = stringA ++ rest)
    (hlong : zbCcmM ≤ rest.length)
    (hroom : stringA.length + rest.length ≤ 125) (stringM : List UInt8) :
    (∃ buf', zbCcmDecryptNAuth aes128 key nonce buf stringA.length rest.length =
        some (buf', .ok ()) ∧ buf'.content = stringA ++ stringM) ↔
      stringA.length + stringM.length + zbCcmM ≤ 125 ∧ ∀ cryptedText, ∃ sent,
          zbCcmEncryptNAuth aes128 key nonce stringA stringM cryptedText =
            some sent ∧ sent.content = buf.content := by
  obtain ⟨stringC, u, rfl, hu⟩ : ∃ stringC u, rest = stringC ++ u ∧ u.length = zbCcmM :=
    ⟨_, _, (rest.take_append_drop (rest.length - zbCcmM)).symm, by
      rw [List.length_drop]
      omega⟩
  rw [List.length_append, hu] at hroom ⊢
  obtain ⟨buf', ret, hdecrypt, -, -, -, hret⟩ :=
    zbCcmDecryptNAuth_spec aes128 key nonce hfits hcontent hu
      (by simp only [ioBufSize, zbCcmM] at *; omega)
  constructor
  · rintro ⟨accepted, haccepted, htext⟩
    rw [hdecrypt, some.injEq, Prod.mk.injEq] at haccepted
    obtain ⟨rfl, rfl⟩ := haccepted
    split at hret
    · rename_i htag
      obtain rfl := List.append_cancel_left (htext.symm.trans hret.2)
      rw [length_xorStream]
      refine ⟨by omega, fun cryptedText => ?_⟩
      obtain ⟨sent, hsent, -, -, hsentContent⟩ :=
        @zbCcmEncryptNAuth_spec aes128 key nonce stringA
          (xorStream (ccmStream aes128 key nonce 1) stringC) cryptedText
          (by rw [length_xorStream]; omega)
      refine ⟨sent, hsent, ?_⟩
      rw [hsentContent, hcontent]
      delta ccmCiphertext
      rw [xorStream_xorStream, ← htag, xorStream_xorStream]
    · cases hret.1
  · rintro ⟨hlength, hsent⟩
    obtain ⟨sent, hencrypt, hsame⟩ := hsent .zeroed
    obtain ⟨_, hspec, -, -, hsentContent⟩ :=
      zbCcmEncryptNAuth_spec aes128 key nonce .zeroed hlength
    obtain rfl := some.inj (hencrypt.symm.trans hspec)
    rw [hsentContent, hcontent] at hsame
    delta ccmCiphertext at hsame
    obtain ⟨rfl, rfl⟩ := List.append_inj (List.append_cancel_left hsame) (by
      have htotal := congrArg List.length hsame
      simp [length_ccmTag, hu] at htotal ⊢
      omega)
    rw [xorStream_xorStream, xorStream_xorStream, if_pos rfl] at hret
    obtain ⟨rfl, htext⟩ := hret
    exact ⟨buf', hdecrypt, htext⟩

def xorAes : Aes128 := fun key block => Vector.zipWith (· ^^^ ·) key block

def sampleCcmKey : CcmKey := .ofFn fun i => .ofNat (17 * i + 1)

def sampleCcmNonce : CcmNonce := .ofFn fun i => .ofNat (i + 9)

def twoBlockText : List UInt8 := (List.range 20).map .ofNat

/-- Two bytes in clear, two blocks of cipher text and the tag. -/
def twoBlockBuf : Buf :=
  { Buf.zeroed with
    len := 26
    buf := .ofFn fun i =>
      [1, 2, 0, 26, 43, 60, 77, 94, 111, 112, 145, 130, 179, 164, 213, 198, 225,
        14, 16, 10, 59, 44, 89, 0, 50, 38].getD i 0 }

theorem zbCcmDecryptNAuth_ok_iff_twoBlocks : 2 + 20 + zbCcmM ≤ 125 ∧ ∀ cryptedText, ∃ sent,
      zbCcmEncryptNAuth xorAes sampleCcmKey sampleCcmNonce [1, 2] twoBlockText
          cryptedText = some sent ∧
        sent.content = twoBlockBuf.content := by
  have hresult :
      (zbCcmDecryptNAuth xorAes sampleCcmKey sampleCcmNonce twoBlockBuf 2 24).map
          (fun result => (result.2.toOption, result.1.content)) =
        some (some (), [1, 2] ++ twoBlockText) := by
    decide +kernel
  obtain ⟨⟨buf', ret⟩, hdecrypt, hobserved⟩ := Option.map_eq_some_iff.mp hresult
  obtain ⟨hok, htext⟩ := Prod.mk.inj hobserved
  cases ret with
  | error => contradiction
  | ok =>
    exact (@zbCcmDecryptNAuth_ok_iff _ _ _ twoBlockBuf [1, 2]
      (twoBlockBuf.content.drop 2) (by decide +kernel) (by decide +kernel)
      (by decide +kernel) (by decide +kernel) twoBlockText).mp
        ⟨buf', hdecrypt, htext⟩

end Zboss
