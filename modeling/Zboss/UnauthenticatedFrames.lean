import Zboss.NwkSecurityRoundTrip

/-!
# What an unauthentic frame changes

A frame which `zb_nwk_unsecure_frame` rejects has been used to update the
address translation table, on purpose, and a child which it names is not
authenticated until the next authentic frame.  Keys, counters of outgoing
frames and the other neighbors are not affected.
-/

namespace Zboss

open Option

theorem locateSender_eq_some
    {zg zg₁ : Globals} {mhr : MacMhr} {hdr : NwkFrameHdr} {junkRef : ℕ}
    {located : Except RetError ℕ}
    (hlocate : locateSender zg mhr hdr junkRef = some (zg₁, located)) :
    ∃ zg₀ ret, senderRef zg mhr hdr.aux.sourceAddress junkRef = some (zg₀, ret) ∧
        ((∃ err, ret = .error err ∧ zg₁ = zg₀ ∧ located = .error err) ∨
          ∃ ref, ret = .ok ref ∧
            zbNwkNeighborGet zg₀ ref (hdr.srcAddr = mhr.srcAddr.addrShort) =
              some (zg₁, located)) := by
  obtain ⟨⟨zg₀, ret⟩, hsender, hget⟩ := bind_eq_some_iff.mp hlocate
  refine ⟨zg₀, ret, hsender, ?_⟩
  cases ret with
  | error err =>
    simp only [some.injEq, Prod.mk.injEq] at hget
    exact Or.inl ⟨err, rfl, hget.1.symm, hget.2.symm⟩
  | ok ref => exact Or.inr ⟨ref, rfl, hget⟩

theorem senderRef_eq_some
    {zg zg₀ : Globals} {mhr : MacMhr} {sourceAddress : IeeeAddr} {junkRef : ℕ}
    {ret : Except RetError ℕ}
    (hsender : senderRef zg mhr sourceAddress junkRef = some (zg₀, ret)) :
    ∃ addr, zg₀ = { zg with addr := addr } ∧
      ((mhr.srcAddressingMode = addr16BitDevOrBroadcast ∧
          zbAddressUpdate zg.addr sourceAddress mhr.srcAddr.addrShort false =
            some (addr, ret)) ∨
        (mhr.srcAddressingMode ≠ addr16BitDevOrBroadcast ∧ addr = zg.addr ∧
          ret = .ok junkRef)) := by
  unfold senderRef at hsender
  split at hsender
  · rename_i hmode
    obtain ⟨⟨addr, ret'⟩, hupdate, hpair⟩ := map_eq_some_iff.mp hsender
    simp only [Prod.mk.injEq] at hpair
    obtain ⟨rfl, rfl⟩ := hpair
    exact ⟨addr, rfl, Or.inl ⟨hmode, hupdate⟩⟩
  · rename_i hmode
    split at hsender
    · simp only [some.injEq, Prod.mk.injEq] at hsender
      exact ⟨zg.addr, hsender.1.symm, Or.inr ⟨hmode, rfl, hsender.2.symm⟩⟩
    · contradiction

theorem unsecureFrom_eq_some
    {aes128 : Aes128} {zg zg' : Globals} {nsdu nsdu' : Buf} {mhr : MacMhr}
    {mhrLen : UInt8} {random : CcmKey} {hdr : NwkFrameHdr} {n : ℕ}
    {ret : Except RetError Unit}
    (hcall : unsecureFrom aes128 zg nsdu mhr mhrLen random hdr n =
      some (zg', nsdu', ret)) :
    ∃ nbe verdict, checkFrame (zg.neighbor.baseNeighbor n)
          (securNwkKeyBySeq zg.nib hdr.aux.keySeqNumber) hdr.aux =
        (nbe, verdict) ∧
        ((∃ err, ret = .error err ∧ zg' = zg.setRow n nbe) ∨
          (∃ key keySeqNumber, verdict = .ok key ∧ ret = .ok () ∧ zg' =
              implicitKeySwitch (zg.setRow n nbe.confirmChild) keySeqNumber random)) := by
  unfold unsecureFrom at hcall
  split at hcall
  · rename_i nbe status hcheck
    refine ⟨nbe, _, hcheck, Or.inl ?_⟩
    obtain ⟨indicated, _, hrest⟩ := bind_eq_some_iff.mp hcall
    simp only [some.injEq, Prod.mk.injEq] at hrest
    exact ⟨_, hrest.2.2.symm, hrest.1.symm⟩
  · rename_i nbe key hcheck
    refine ⟨nbe, _, hcheck, ?_⟩
    obtain ⟨⟨opened, openRet⟩, _, hrest⟩ := bind_eq_some_iff.mp hcall
    cases openRet with
    | error err =>
      obtain ⟨indicated, _, hlast⟩ := bind_eq_some_iff.mp hrest
      simp only [some.injEq, Prod.mk.injEq] at hlast
      exact Or.inl ⟨_, hlast.2.2.symm, hlast.1.symm⟩
    | ok _ =>
      obtain ⟨headed, _, hrest⟩ := bind_eq_some_iff.mp hrest
      obtain ⟨keySeqNumber, _, hlast⟩ := bind_eq_some_iff.mp hrest
      simp only [some.injEq, Prod.mk.injEq] at hlast
      exact Or.inr ⟨key, keySeqNumber, rfl, hlast.2.2.symm, hlast.1.symm⟩

theorem zbNwkUnsecureFrame_eq_some
    {aes128 : Aes128} {zg zg' : Globals} {nsdu nsdu' : Buf} {mhr : MacMhr}
    {mhrLen : UInt8} {junkRef : ℕ} {random : CcmKey}
    {ret : Except RetError Unit}
    (hcall : zbNwkUnsecureFrame aes128 zg nsdu mhr mhrLen junkRef random =
      some (zg', nsdu', ret)) :
    (zg.authenticated = false ∧ zg' = zg ∧ ret = .error .error) ∨
      ∃ hdr, readNwkHdr nsdu = some hdr ∧
        ((∃ err, locateSender zg mhr hdr junkRef = some (zg', .error err) ∧
            ret = .error err) ∨
          ∃ zg₁ n, locateSender zg mhr hdr junkRef = some (zg₁, .ok n) ∧
            unsecureFrom aes128 zg₁ nsdu mhr mhrLen random hdr n =
              some (zg', nsdu', ret)) := by
  unfold zbNwkUnsecureFrame at hcall
  split at hcall
  · obtain ⟨hdr, hread, hrest⟩ := bind_eq_some_iff.mp hcall
    refine Or.inr ⟨hdr, hread, ?_⟩
    obtain ⟨⟨zg₁, located⟩, hlocate, hrest⟩ := bind_eq_some_iff.mp hrest
    cases located with
    | error err =>
      obtain ⟨indicated, _, hlast⟩ := bind_eq_some_iff.mp hrest
      simp only [some.injEq, Prod.mk.injEq] at hlast
      obtain ⟨rfl, _, rfl⟩ := hlast
      exact Or.inl ⟨err, hlocate, rfl⟩
    | ok n => exact Or.inr ⟨zg₁, n, hlocate, hrest⟩
  · rename_i hauth
    simp only [some.injEq, Prod.mk.injEq] at hcall
    exact Or.inl ⟨by simpa using hauth, hcall.1.symm, hcall.2.2.symm⟩

/-! ## The row of the sender -/

def NeighborTblEnt.Stale (row : NeighborTblEnt) (aux : NwkAuxFrameHdr) : Prop :=
  row.incomingFrameCounter > aux.frameCounter ∨ row.incomingFrameCounter = 0xFFFFFFFF

instance (row : NeighborTblEnt) (aux : NwkAuxFrameHdr) : Decidable (row.Stale aux) :=
  inferInstanceAs (Decidable (_ ∨ _))

/-- The row of the sender after its frame: a child is no longer authenticated,
another key number starts at counter 0, and the counter of the frame is taken
over before the tag is looked at, unless there is no key or it is stale. -/
def NeighborTblEnt.afterFrame (row : NeighborTblEnt) (aux : NwkAuxFrameHdr)
    (key : Option CcmKey) : NeighborTblEnt :=
  let nbe :=
    { row with
      relationship :=
        if row.relationship = .child then .unauthenticatedChild
        else row.relationship
      keySeqNumber := aux.keySeqNumber
      incomingFrameCounter :=
        if row.keySeqNumber = aux.keySeqNumber then row.incomingFrameCounter
        else 0 }
  if key = none ∨ nbe.Stale aux then nbe
  else { nbe with incomingFrameCounter := aux.frameCounter }

theorem expectFrame_eq (row : NeighborTblEnt) (keySeqNumber : UInt8) :
    row.expectFrame keySeqNumber =
      { row with
        relationship :=
          if row.relationship = .child then .unauthenticatedChild
          else row.relationship
        keySeqNumber := keySeqNumber
        incomingFrameCounter :=
          if row.keySeqNumber = keySeqNumber then row.incomingFrameCounter
          else 0 } := by
  unfold NeighborTblEnt.expectFrame
  by_cases hchild : row.relationship = .child
  · by_cases hsame : row.keySeqNumber = keySeqNumber
    · subst hsame
      simp [hchild]
    · simp [hchild, hsame]
  · by_cases hsame : row.keySeqNumber = keySeqNumber
    · subst hsame
      simp [hchild]
    · simp [hchild, hsame]

theorem checkFrame_eq
    {row nbe : NeighborTblEnt} {key : Option CcmKey} {aux : NwkAuxFrameHdr}
    {verdict : Except NwkCommandStatus CcmKey}
    (hcheck : checkFrame row key aux = (nbe, verdict)) :
    ((nbe = row.expectFrame aux.keySeqNumber ∧ ∀ k, verdict ≠ .ok k) ∨
      ∃ k, key = some k ∧ verdict = .ok k ∧
        ¬ (row.expectFrame aux.keySeqNumber).Stale aux ∧
        nbe =
          { row.expectFrame aux.keySeqNumber with
            incomingFrameCounter := aux.frameCounter }) := by
  unfold checkFrame at hcheck
  cases key with
  | none =>
    simp only [Prod.mk.injEq] at hcheck
    refine Or.inl ⟨hcheck.1.symm, ?_⟩
    rintro k rfl
    simp at hcheck
  | some k =>
    dsimp only at hcheck
    split at hcheck
    · simp only [Prod.mk.injEq] at hcheck
      refine Or.inl ⟨hcheck.1.symm, ?_⟩
      rintro k' rfl
      simp at hcheck
    · rename_i hfresh
      simp only [Prod.mk.injEq] at hcheck
      exact Or.inr ⟨k, rfl, hcheck.2.symm, hfresh, hcheck.1.symm⟩

theorem checkFrame_afterFrame
    {row nbe : NeighborTblEnt} {key : Option CcmKey} {aux : NwkAuxFrameHdr}
    {verdict : Except NwkCommandStatus CcmKey}
    (hcheck : checkFrame row key aux = (nbe, verdict)) :
    nbe = row.afterFrame aux key := by
  unfold checkFrame at hcheck
  dsimp only [NeighborTblEnt.afterFrame]
  rw [← expectFrame_eq]
  cases key with
  | none =>
    rw [if_pos (Or.inl rfl)]
    exact (congrArg Prod.fst hcheck).symm
  | some k =>
    dsimp only at hcheck
    split at hcheck
    · rename_i hstale
      have hstale : (row.expectFrame aux.keySeqNumber).Stale aux := hstale
      rw [if_pos (Or.inr hstale)]
      exact (congrArg Prod.fst hcheck).symm
    · rename_i hfresh
      have hkey : ¬ (some k = none ∨ (row.expectFrame aux.keySeqNumber).Stale aux) :=
        not_or.mpr ⟨some_ne_none k, hfresh⟩
      obtain rfl := congrArg Prod.fst hcheck
      rw [if_neg hkey, expectFrame_eq]

/-- The addresses after a frame was received, and the sender's reference: those
in the auxiliary header and in the MAC header belong together. -/
def SenderAddresses (zg : Globals) (mhr : MacMhr) (hdr : NwkFrameHdr)
    (junkRef : ℕ) (addr : AddrGlobals) (ret : Except RetError ℕ) : Prop :=
  (mhr.srcAddressingMode = addr16BitDevOrBroadcast ∧
      zbAddressUpdate zg.addr hdr.aux.sourceAddress mhr.srcAddr.addrShort
        false = some (addr, ret)) ∨
    (mhr.srcAddressingMode ≠ addr16BitDevOrBroadcast ∧ addr = zg.addr ∧ ret = .ok junkRef)

/-- A frame which is not accepted leaves the keys, the counters of outgoing
frames and all rows of other neighbors as they were.  The addresses are the
updated ones; where the sender's row is created its reference is locked. -/
theorem zbNwkUnsecureFrame_error
    {aes128 : Aes128} {zg zg' : Globals} {nsdu nsdu' : Buf} {mhr : MacMhr}
    {mhrLen : UInt8} {junkRef : ℕ} {random : CcmKey} {err : RetError}
    (hcall : zbNwkUnsecureFrame aes128 zg nsdu mhr mhrLen junkRef random =
      some (zg', nsdu', .error err)) :
    (zg.authenticated = false ∧ zg' = zg) ∨ ∃ hdr addr ret, readNwkHdr nsdu = some hdr ∧
        SenderAddresses zg mhr hdr junkRef addr ret ∧
        (zg' = { zg with addr := addr } ∨ ∃ ref, ret = .ok ref ∧
            ((zg.neighbor.addrToNeighbor ref ≠ noNeighbor ∧ zg' =
                  { zg with
                    addr := addr
                    neighbor :=
                      zg.neighbor.setRow (zg.neighbor.addrToNeighbor ref)
                        ((zg.neighbor.baseNeighbor
                            (zg.neighbor.addrToNeighbor ref)).afterFrame hdr.aux
                          (securNwkKeyBySeq zg.nib hdr.aux.keySeqNumber)) }) ∨
              (zg.neighbor.addrToNeighbor ref = noNeighbor ∧
                ∃ locked, zbAddressLock addr ref = some locked ∧ zg' =
                    { zg with
                      addr := locked
                      neighbor :=
                        { (zg.neighbor.setNeighbor ref zg.neighbor.baseNeighborUsed).setRow
                            zg.neighbor.baseNeighborUsed
                            ((newNeighborEnt ref zg.nib.depth).afterFrame hdr.aux
                              (securNwkKeyBySeq zg.nib hdr.aux.keySeqNumber)) with
                          baseNeighborUsed := zg.neighbor.baseNeighborUsed + 1 } }))) := by
  rcases zbNwkUnsecureFrame_eq_some hcall with
    ⟨hauth, hsame, _⟩ | ⟨hdr, hread, hlocated⟩
  · exact Or.inl ⟨hauth, hsame⟩
  · right
    rcases hlocated with ⟨_, hlocate, _⟩ | ⟨zg₁, n, hlocate, hfrom⟩
    · -- the sender has no row
      obtain ⟨zg₀, ret, hsender, hget⟩ := locateSender_eq_some hlocate
      obtain ⟨addr, hzg₀, haddresses⟩ := senderRef_eq_some hsender
      refine ⟨hdr, addr, ret, hread, haddresses, Or.inl ?_⟩
      rcases hget with ⟨_, _, hsame, _⟩ | ⟨ref, _, hget⟩
      · rw [hsame, hzg₀]
      · rcases zbNwkNeighborGet_eq_some hget with ⟨hsame, _⟩ | ⟨_, _, _, _, hok, _⟩
        · rw [hsame, hzg₀]
        · contradiction
    · obtain ⟨zg₀, ret, hsender, hget⟩ := locateSender_eq_some hlocate
      obtain ⟨addr, rfl, haddresses⟩ := senderRef_eq_some hsender
      refine ⟨hdr, addr, ret, hread, haddresses, Or.inr ?_⟩
      rcases hget with ⟨_, _, _, herror⟩ | ⟨ref, hret, hget⟩
      · contradiction
      obtain ⟨nbe, verdict, hcheck, hafter⟩ := unsecureFrom_eq_some hfrom
      obtain rfl := checkFrame_afterFrame hcheck
      have hzg' : zg' = zg₁.setRow n ((zg₁.neighbor.baseNeighbor n).afterFrame hdr.aux
          (securNwkKeyBySeq zg₁.nib hdr.aux.keySeqNumber)) := by
        rcases hafter with ⟨_, _, hzg'⟩ | ⟨_, _, _, hok, _⟩
        · exact hzg'
        · contradiction
      refine ⟨ref, hret, ?_⟩
      rcases zbNwkNeighborGet_eq_some hget with
        ⟨rfl, ⟨hpresent, hn⟩ | ⟨_, _, herror⟩⟩ | ⟨habsent, _, _, _, hn, locked, hlock, rfl⟩
      · obtain rfl := Except.ok.inj hn
        exact Or.inl ⟨hpresent, hzg'⟩
      · contradiction
      · obtain rfl := Except.ok.inj hn
        refine Or.inr ⟨habsent, locked, hlock, ?_⟩
        rw [hzg']
        simp [Globals.setRow, NeighborTbl.setRow]

def childReceiver : Globals :=
  match locateSender pairedReceiver pairedMhr
      ⟨22, 0, (fillAux (pairedSender 5) false 0).2, 1⟩ 0 with
  | some (zg, .ok n) =>
      zg.setRow n { zg.neighbor.baseNeighbor n with relationship := .child }
  | _ => pairedReceiver

/-- A frame in the name of the child, with another short address and no valid
tag. -/
def forgedFrame : Buf :=
  (Buf.store { Buf.zeroed with len := 27, dataOffset := 20 } 20
    ([0x08, 0x02, 0, 0, 2, 0, 5, 7] ++
      ((fillAux (pairedSender 5) false 0).2.zeroedLevel.toBytes ++
        [1, 2, 3, 4, 5]))).getD .zeroed

def forgedMhr : MacMhr := { pairedMhr with srcAddr := ⟨⟨2, 0, 0⟩, .zero⟩ }

theorem zbNwkUnsecureFrame_error_forged : ∃ zg' nsdu' hdr addr ret,
      zbNwkUnsecureFrame pairedCipher childReceiver forgedFrame forgedMhr 9 0
          emptyKey = some (zg', nsdu', .error .error) ∧
        readNwkHdr forgedFrame = some hdr ∧
        SenderAddresses childReceiver forgedMhr hdr 0 addr ret ∧
        zg'.nib = childReceiver.nib := by
  have hresult : (zbNwkUnsecureFrame pairedCipher childReceiver forgedFrame forgedMhr 9 0
          emptyKey).map (fun got => got.2.2) = some (.error .error) := by
    decide +kernel
  obtain ⟨⟨zg', nsdu', ret⟩, hcall, rfl⟩ := map_eq_some_iff.mp hresult
  rcases zbNwkUnsecureFrame_error hcall with ⟨hauth, _⟩ |
    ⟨hdr, addr, ret, hread, haddresses, hafter⟩
  · exact absurd hauth (by decide +kernel)
  · refine ⟨zg', nsdu', hdr, addr, ret, hcall, hread, haddresses, ?_⟩
    rcases hafter with rfl | ⟨_, _, ⟨_, rfl⟩ | ⟨_, _, _, rfl⟩⟩
    · rfl
    · rfl
    · rfl

/-- The forged frame does not authenticate; afterwards the child is not
authenticated and its entry has the short address of the frame. -/
theorem not_unchanged_of_forged_frame : ∃ zg' nsdu' opened hdr key,
      readNwkHdr forgedFrame = some hdr ∧
        securNwkKeyBySeq childReceiver.nib hdr.aux.keySeqNumber = some key ∧
        openFrame pairedCipher forgedFrame hdr key = some (opened, .error .error) ∧
        zbNwkUnsecureFrame pairedCipher childReceiver forgedFrame forgedMhr 9 0
            emptyKey = some (zg', nsdu', .error .error) ∧
        (childReceiver.neighbor.baseNeighbor 0).addrRef = 82 ∧
        (childReceiver.neighbor.baseNeighbor 0).relationship = .child ∧
        (zg'.neighbor.baseNeighbor 0).relationship = .unauthenticatedChild ∧
        (childReceiver.addr.addrMap 82).addr = 1 ∧
        (zg'.addr.addrMap 82).addr = 2 := by
  have hresult : ((readNwkHdr forgedFrame).bind fun hdr =>
        (securNwkKeyBySeq childReceiver.nib hdr.aux.keySeqNumber).bind fun key =>
        (openFrame pairedCipher forgedFrame hdr key).bind fun opened =>
        (zbNwkUnsecureFrame pairedCipher childReceiver forgedFrame forgedMhr 9 0
          emptyKey).map fun got =>
          (opened.2, got.2.2, (got.1.neighbor.baseNeighbor 0).relationship,
            (got.1.addr.addrMap 82).addr)) =
        some (.error .error, .error .error, .unauthenticatedChild, 2) := by
    decide +kernel
  obtain ⟨hdr, hread, hrest⟩ := bind_eq_some_iff.mp hresult
  obtain ⟨key, hkey, hrest⟩ := bind_eq_some_iff.mp hrest
  obtain ⟨⟨opened, openRet⟩, hopened, hrest⟩ := bind_eq_some_iff.mp hrest
  obtain ⟨⟨zg', nsdu', ret⟩, hcall, hobserved⟩ := map_eq_some_iff.mp hrest
  simp only [Prod.mk.injEq] at hobserved
  obtain ⟨rfl, rfl, hrelationship, haddr⟩ := hobserved
  exact ⟨zg', nsdu', opened, hdr, key, hread, hkey, hopened, hcall,
    by decide +kernel, by decide +kernel, hrelationship, by decide +kernel,
    haddr⟩

end Zboss
