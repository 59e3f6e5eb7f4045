import Zboss.TransitionSystem
import Zboss.UnauthenticatedFrames

/-!
# Replay protection

The frames of one source under one key number, in any sequence of received
frames.  The stored counter is one of a row of the neighbor table; it protects
against replays as long as the source keeps its row, the row keeps the key
number, and the last frame is not repeated.
-/

namespace Zboss

open Option NeighborTbl TransitionSystem

/-- A call of `zb_nwk_unsecure_frame`, with the content of an uninitialized
variable and the bytes from `ZB_RANDOM`. -/
structure ReceivedFrame where
  nsdu : Buf
  mhr : MacMhr
  mhrLen : UInt8
  junkRef : ℕ
  random : CcmKey

/-- The state of the stack, with the history of one source under one key
number: the counters of its accepted frames, the last one first, and the row
in which the last one was accepted. -/
structure ReplayState where
  zg : Globals
  accepted : List UInt32
  row : Option ℕ

def NwkFrameHdr.IsFrom (hdr : NwkFrameHdr) (source : IeeeAddr)
    (keySeqNumber : UInt8) : Prop :=
  hdr.aux.sourceAddress = source ∧ hdr.aux.keySeqNumber = keySeqNumber

instance (hdr : NwkFrameHdr) (source : IeeeAddr) (keySeqNumber : UInt8) :
    Decidable (hdr.IsFrom source keySeqNumber) :=
  inferInstanceAs (Decidable (_ ∧ _))

def ReplayState.record (state : ReplayState) (source : IeeeAddr)
    (keySeqNumber : UInt8) (frame : ReceivedFrame) (zg : Globals)
    (ret : Except RetError Unit) : ReplayState :=
  match readNwkHdr frame.nsdu with
  | some hdr =>
      if ret = .ok () ∧ hdr.IsFrom source keySeqNumber then
        { zg := zg
          accepted := hdr.aux.frameCounter :: state.accepted
          row :=
            (locateSender state.zg frame.mhr hdr frame.junkRef).bind
              fun located => located.2.toOption }
      else { state with zg := zg }
  | none => { state with zg := zg }

def ReplayState.receive (aes128 : Aes128) (source : IeeeAddr)
    (keySeqNumber : UInt8) (state : ReplayState) (frame : ReceivedFrame) :
    Option ReplayState :=
  (zbNwkUnsecureFrame aes128 state.zg frame.nsdu frame.mhr frame.mhrLen
    frame.junkRef frame.random).map fun (zg, _, ret) =>
      state.record source keySeqNumber frame zg ret

def ReplayState.Increasing (state : ReplayState) : Prop :=
  state.accepted.Pairwise fun later earlier => earlier < later

def updatedEntry (g : AddrGlobals) (ieeeAddress : IeeeAddr)
    (shortAddress : ℕ) : Option ℕ := do
  let (g, compressed) ← zbIeeeAddrCompress g ieeeAddress
  let (g, target) ←
    updateTarget g (shortSearch g shortAddress) (ieeeSearch g compressed)
  target <|> freeEntry g (some compressed)

def frameRow (zg : Globals) (frame : ReceivedFrame) (hdr : NwkFrameHdr) :
    Option ℕ :=
  (if frame.mhr.srcAddressingMode = addr16BitDevOrBroadcast then
    updatedEntry zg.addr hdr.aux.sourceAddress frame.mhr.srcAddr.addrShort
  else some frame.junkRef).map zg.neighbor.addrToNeighbor

/-- Once a frame from the source was accepted under the key number in a row,
the row has this key number whenever a frame under it arrives there, and
frames from the source under it arrive there and do not repeat the last
counter while it is the stored one. -/
def ReplaySafe (source : IeeeAddr) (keySeqNumber : UInt8) (state : ReplayState)
    (frame : ReceivedFrame) : Prop :=
  match state.row, readNwkHdr frame.nsdu with
  | some n, some hdr =>
      hdr.aux.keySeqNumber = keySeqNumber → (frameRow state.zg frame hdr = some n →
          (state.zg.neighbor.baseNeighbor n).keySeqNumber = keySeqNumber) ∧
        (hdr.aux.sourceAddress = source → frameRow state.zg frame hdr = some n ∧
            ¬ (state.accepted.head? = some hdr.aux.frameCounter ∧
              (state.zg.neighbor.baseNeighbor n).incomingFrameCounter =
                hdr.aux.frameCounter))
  | _, _ => True

instance (source : IeeeAddr) (keySeqNumber : UInt8) (state : ReplayState)
    (frame : ReceivedFrame) :
    Decidable (ReplaySafe source keySeqNumber state frame) := by
  unfold ReplaySafe
  split <;> infer_instance

structure RowsLinked (nt : NeighborTbl) : Prop where
  size : nt.baseNeighborSize ≤ neighborTableSize
  used : ∀ ref, nt.addrToNeighbor ref ≠ noNeighbor →
    nt.addrToNeighbor ref < nt.baseNeighborUsed

structure ReplayInvariant (keySeqNumber : UInt8) (state : ReplayState) : Prop where
  linked : RowsLinked state.zg.neighbor
  increasing : state.Increasing
  first : state.row = none → state.accepted = []
  row : ∀ n, state.row = some n → n < state.zg.neighbor.baseNeighborUsed ∧ n ≠ noNeighbor ∧
      ((state.zg.neighbor.baseNeighbor n).keySeqNumber = keySeqNumber →
        ∀ counter ∈ state.accepted,
          counter ≤ (state.zg.neighbor.baseNeighbor n).incomingFrameCounter)

theorem updatedEntry_of_update
    {g g' : AddrGlobals} {ieeeAddress : IeeeAddr} {shortAddress ref : ℕ}
    (hupdate : zbAddressUpdate g ieeeAddress shortAddress false = some (g', .ok ref)) :
    updatedEntry g ieeeAddress shortAddress = some ref := by
  unfold zbAddressUpdate at hupdate
  obtain ⟨⟨g₁, compressed⟩, hcompress, hrest⟩ := bind_eq_some_iff.mp hupdate
  obtain ⟨⟨g₂, target⟩, htarget, hrest⟩ := bind_eq_some_iff.mp hrest
  have hentry : updatedEntry g ieeeAddress shortAddress =
      (target <|> freeEntry g₂ (some compressed)) := by
    simp only [updatedEntry, hcompress, htarget, bind_eq_bind, bind_some]
  rw [hentry]
  cases target with
  | some found =>
    obtain ⟨g₃, _, hlast⟩ := bind_eq_some_iff.mp hrest
    simp only [lockResult, some.injEq, Prod.mk.injEq, Except.ok.injEq] at hlast
    rw [hlast.2]
    rfl
  | none =>
    obtain ⟨⟨g₃, ret⟩, hadd, hlast⟩ := bind_eq_some_iff.mp hrest
    simp only [lockResult, some.injEq, Prod.mk.injEq] at hlast
    obtain ⟨_, rfl⟩ := hlast
    unfold addrAdd at hadd
    split at hadd
    · simp at hadd
    · rename_i i hfree
      obtain ⟨g₄, _, hlast⟩ := bind_eq_some_iff.mp hadd
      simp only [some.injEq, Prod.mk.injEq, Except.ok.injEq] at hlast
      rw [← hlast.2, hfree]
      rfl

variable {frame : ReceivedFrame} {hdr : NwkFrameHdr} {n : ℕ}
  {zg zg₁ zg' : Globals} {aes128 : Aes128} {ret : Except RetError Unit}
  {keySeqNumber : UInt8} {source : IeeeAddr} {state : ReplayState}

theorem locateSender_row (hlocate : locateSender zg frame.mhr hdr frame.junkRef =
      some (zg₁, .ok n)) :
    (frameRow zg frame hdr = some n ∧ n ≠ noNeighbor ∧ zg₁.neighbor = zg.neighbor) ∨
      (frameRow zg frame hdr = some noNeighbor ∧ n = zg.neighbor.baseNeighborUsed ∧
        zg.neighbor.baseNeighborUsed < zg.neighbor.baseNeighborSize ∧
        ∃ ref, zg₁.neighbor =
          { (zg.neighbor.setNeighbor ref n).setRow n (newNeighborEnt ref zg.nib.depth) with
            baseNeighborUsed := n + 1 }) := by
  obtain ⟨zg₀, ret, hsender, hget⟩ := locateSender_eq_some hlocate
  obtain ⟨addr, rfl, haddresses⟩ := senderRef_eq_some hsender
  rcases hget with ⟨_, _, _, herror⟩ | ⟨ref, rfl, hget⟩
  · contradiction
  have hrow : frameRow zg frame hdr =
      some (zg.neighbor.addrToNeighbor ref) := by
    rcases haddresses with ⟨hmode, hupdate⟩ | ⟨hmode, _, hjunk⟩
    · rw [frameRow, if_pos hmode, updatedEntry_of_update hupdate, map_some]
    · obtain rfl := Except.ok.inj hjunk
      rw [frameRow, if_neg hmode, map_some]
  rcases zbNwkNeighborGet_eq_some hget with
    ⟨rfl, ⟨hpresent, hn⟩ | ⟨_, _, herror⟩⟩ | ⟨habsent, _, hroom, _, hn, locked, _, rfl⟩
  · obtain rfl := Except.ok.inj hn
    exact Or.inl ⟨hrow, hpresent, rfl⟩
  · contradiction
  · obtain rfl := Except.ok.inj hn
    dsimp only at habsent
    exact Or.inr ⟨habsent ▸ hrow, rfl, hroom, ref, rfl⟩

theorem locateSender_error {mhr : MacMhr} {junkRef : ℕ} {err : RetError}
    (hlocate : locateSender zg mhr hdr junkRef = some (zg₁, .error err)) :
    zg₁.neighbor = zg.neighbor := by
  obtain ⟨zg₀, ret, hsender, hget⟩ := locateSender_eq_some hlocate
  obtain ⟨addr, rfl, _⟩ := senderRef_eq_some hsender
  rcases hget with ⟨_, _, rfl, _⟩ | ⟨ref, _, hget⟩
  · rfl
  · rcases zbNwkNeighborGet_eq_some hget with ⟨rfl, _⟩ | ⟨_, _, _, _, hok, _⟩
    · rfl
    · contradiction

theorem implicitKeySwitch_neighbor
    (zg : Globals) (keySeqNumber : UInt8) (random : CcmKey) :
    (implicitKeySwitch zg keySeqNumber random).neighbor = zg.neighbor := by
  unfold implicitKeySwitch securNwkKeySwitch
  dsimp only
  split
  · split
    · rfl
    · split
      · rfl
      · rfl
  · rfl

theorem unsecureFrom_row {nsdu nsdu' : Buf} {mhr : MacMhr}
    {mhrLen : UInt8} {random : CcmKey}
    (hcall : unsecureFrom aes128 zg nsdu mhr mhrLen random hdr n =
      some (zg', nsdu', ret)) :
    ∃ nbe, zg'.neighbor = zg.neighbor.setRow n nbe ∧
      nbe.keySeqNumber = hdr.aux.keySeqNumber ∧
      ((zg.neighbor.baseNeighbor n).keySeqNumber = hdr.aux.keySeqNumber →
        (zg.neighbor.baseNeighbor n).incomingFrameCounter ≤ nbe.incomingFrameCounter) ∧
      (ret = .ok () → nbe.incomingFrameCounter = hdr.aux.frameCounter) := by
  obtain ⟨nbe, verdict, hcheck, hafter⟩ := unsecureFrom_eq_some hcall
  have hchecked : nbe.keySeqNumber = hdr.aux.keySeqNumber ∧
      ((zg.neighbor.baseNeighbor n).keySeqNumber = hdr.aux.keySeqNumber →
        (zg.neighbor.baseNeighbor n).incomingFrameCounter ≤ nbe.incomingFrameCounter) ∧
      ((∃ key, verdict = .ok key) → nbe.incomingFrameCounter = hdr.aux.frameCounter) := by
    rcases checkFrame_eq hcheck with ⟨hnbe, hrejected⟩ | ⟨key, _, hverdict, hfresh, hnbe⟩
    · rw [expectFrame_eq] at hnbe
      rw [hnbe]
      refine ⟨rfl, ?_, ?_⟩
      · intro hsame
        rw [if_pos hsame]
        exact UInt32.le_refl _
      · rintro ⟨key, hverdict⟩
        exact absurd hverdict (hrejected key)
    · rw [expectFrame_eq] at hnbe hfresh
      rw [hnbe]
      refine ⟨rfl, ?_, fun _ => rfl⟩
      intro hsame
      simp only [NeighborTblEnt.Stale, if_pos hsame, not_or] at hfresh
      exact UInt32.not_lt.mp hfresh.1
  rcases hafter with ⟨err, hret, hzg'⟩ | ⟨key, keySeqNumber, hverdict, _, hzg'⟩
  · refine ⟨nbe, by rw [hzg']; rfl, hchecked.1, hchecked.2.1, ?_⟩
    intro hok
    rw [hret] at hok
    contradiction
  · refine ⟨nbe.confirmChild, ?_, ?_, ?_, ?_⟩
    · rw [hzg', implicitKeySwitch_neighbor]
      rfl
    · unfold NeighborTblEnt.confirmChild
      split
      · exact hchecked.1
      · exact hchecked.1
    · unfold NeighborTblEnt.confirmChild
      split
      · exact hchecked.2.1
      · exact hchecked.2.1
    · intro _
      unfold NeighborTblEnt.confirmChild
      split
      · exact hchecked.2.2 ⟨key, hverdict⟩
      · exact hchecked.2.2 ⟨key, hverdict⟩

/-! ## One frame -/

theorem accepted_lt_of_le {accepted : List UInt32} {counter : UInt32}
    (hincreasing : accepted.Pairwise fun later earlier => earlier < later)
    (hle : ∀ earlier ∈ accepted, earlier ≤ counter)
    (hlast : accepted.head? ≠ some counter) :
    ∀ earlier ∈ accepted, earlier < counter := by
  cases accepted with
  | nil =>
    intro earlier hearlier
    contradiction
  | cons last before =>
    have hlt : last < counter :=
      UInt32.lt_of_le_of_ne (hle last (List.mem_cons_self ..))
        (fun heq => hlast (by rw [heq, List.head?_cons]))
    intro earlier hearlier
    rcases List.mem_cons.mp hearlier with rfl | hbefore
    · exact hlt
    · exact UInt32.lt_trans ((List.pairwise_cons.mp hincreasing).1 earlier hbefore) hlt

theorem record_of_rejected (hrejected : ret ≠ .ok ()) :
    state.record source keySeqNumber frame zg ret = { state with zg := zg } := by
  unfold ReplayState.record
  split
  · rw [if_neg (fun h => hrejected h.1)]
  · rfl

theorem rowsLinked_locateSender (hlinked : RowsLinked zg.neighbor)
    (hlocate : locateSender zg frame.mhr hdr frame.junkRef = some (zg₁, .ok n)) :
    RowsLinked zg₁.neighbor ∧ n < zg₁.neighbor.baseNeighborUsed ∧ n ≠ noNeighbor ∧
      zg.neighbor.baseNeighborUsed ≤ zg₁.neighbor.baseNeighborUsed ∧
      ∀ m, m < zg.neighbor.baseNeighborUsed →
        zg₁.neighbor.baseNeighbor m = zg.neighbor.baseNeighbor m ∧
          (m = n → frameRow zg frame hdr = some n) := by
  rcases locateSender_row hlocate with ⟨hrow, hpresent, hsame⟩ | ⟨_, rfl, hroom, ref, hnt⟩
  · have hused : n < zg.neighbor.baseNeighborUsed := by
      obtain ⟨ref, _, rfl⟩ := map_eq_some_iff.mp hrow
      exact hlinked.used ref hpresent
    rw [hsame]
    exact ⟨hlinked, hused, hpresent, Nat.le_refl _, fun m _ => ⟨rfl, fun _ => hrow⟩⟩
  · have hsize := hlinked.size
    simp only [neighborTableSize] at hsize
    rw [hnt]
    refine ⟨⟨hlinked.size, ?_⟩, Nat.lt_succ_self _, ?_, Nat.le_succ _, ?_⟩
    · intro other hother
      by_cases hsame : other = ref
      · subst hsame
        simp [setRow, setNeighbor]
      · simp only [setRow, setNeighbor, Function.update_of_ne hsame] at hother ⊢
        exact Nat.lt_succ_of_lt (hlinked.used other hother)
    · simp only [noNeighbor]
      omega
    · intro m hm
      have hne : m ≠ zg.neighbor.baseNeighborUsed := Nat.ne_of_lt hm
      refine ⟨?_, fun hsame => absurd hsame hne⟩
      simp [setRow, setNeighbor, Function.update_of_ne hne]

theorem ReplayInvariant.arrive {nsdu' : Buf}
    (hinvariant : ReplayInvariant keySeqNumber state)
    (hsafe : ReplaySafe source keySeqNumber state frame)
    (hread : readNwkHdr frame.nsdu = some hdr)
    (hlocate : locateSender state.zg frame.mhr hdr frame.junkRef = some (zg₁, .ok n))
    (hcall : unsecureFrom aes128 zg₁ frame.nsdu frame.mhr frame.mhrLen
      frame.random hdr n = some (zg', nsdu', ret)) :
    ReplayInvariant keySeqNumber (state.record source keySeqNumber frame zg' ret) := by
  obtain ⟨hlinked₁, hn, hnone, hmono, hkept⟩ :=
    rowsLinked_locateSender hinvariant.linked hlocate
  obtain ⟨nbe, hnt, hnumber, hraised, haccepted⟩ := unsecureFrom_row hcall
  have hlinked : RowsLinked zg'.neighbor := by
    rw [hnt]
    exact ⟨hlinked₁.size, hlinked₁.used⟩
  have hused : zg'.neighbor.baseNeighborUsed = zg₁.neighbor.baseNeighborUsed := by
    rw [hnt]
    rfl
  have hrowN : zg'.neighbor.baseNeighbor n = nbe := by
    rw [hnt]
    simp [setRow]
  -- the counters accepted so far stay below that of the row
  have hbound : ∀ m, state.row = some m →
      (zg'.neighbor.baseNeighbor m).keySeqNumber = keySeqNumber →
      ∀ counter ∈ state.accepted,
        counter ≤ (zg'.neighbor.baseNeighbor m).incomingFrameCounter := by
    intro m hm hsame counter hcounter
    obtain ⟨hmused, _, hbefore⟩ := hinvariant.row m hm
    obtain ⟨hrow₁, harrived⟩ := hkept m hmused
    by_cases hmn : m = n
    · subst hmn
      rw [hrowN] at hsame ⊢
      rw [hnumber] at hsame
      simp only [ReplaySafe, hm, hread] at hsafe
      have hkey := (hsafe hsame).1 (harrived rfl)
      have hle := hbefore hkey counter hcounter
      rw [hrow₁, hsame] at hraised
      exact UInt32.le_trans hle (hraised hkey)
    · have hother : zg'.neighbor.baseNeighbor m = state.zg.neighbor.baseNeighbor m := by
        rw [hnt, ← hrow₁]
        simp [setRow, Function.update_of_ne hmn]
      rw [hother] at hsame ⊢
      exact hbefore hsame counter hcounter
  by_cases hrecorded : ret = .ok () ∧ hdr.IsFrom source keySeqNumber
  · obtain ⟨hok, hsource, hkeySeq⟩ := hrecorded
    have hstate : state.record source keySeqNumber frame zg' ret =
        { zg := zg'
          accepted := hdr.aux.frameCounter :: state.accepted
          row := some n } := by
      simp only [ReplayState.record, hread, hlocate]
      rw [if_pos ⟨hok, hsource, hkeySeq⟩]
      rfl
    -- a frame with a lower or the same counter is not accepted
    have hhigher : ∀ counter ∈ state.accepted,
        counter < hdr.aux.frameCounter := by
      cases hm : state.row with
      | none =>
        rw [hinvariant.first hm]
        intro counter hcounter
        contradiction
      | some m =>
        obtain ⟨hmused, hmnone, hbefore⟩ := hinvariant.row m hm
        simp only [ReplaySafe, hm, hread] at hsafe
        obtain ⟨hkey, hfresh⟩ := hsafe hkeySeq
        obtain ⟨hrow, hrepeated⟩ := hfresh hsource
        have hmn : m = n := by
          rcases locateSender_row hlocate with ⟨hrow', _⟩ | ⟨hrow', _⟩
          · rw [hrow] at hrow'
            exact some.inj hrow'
          · rw [hrow] at hrow'
            exact absurd (some.inj hrow') hmnone
        subst hmn
        have hup := hraised (by rw [(hkept m hmused).1, hkey hrow, hkeySeq])
        rw [(hkept m hmused).1, haccepted hok] at hup
        apply accepted_lt_of_le hinvariant.increasing
        · intro counter hcounter
          exact UInt32.le_trans (hbefore (hkey hrow) counter hcounter) hup
        · intro hlast
          have hmem := List.mem_of_head? hlast
          have hstored := hbefore (hkey hrow) _ hmem
          exact hrepeated ⟨hlast, UInt32.le_antisymm hup hstored⟩
    rw [hstate]
    refine ⟨hlinked, ?_, fun hempty => absurd hempty (by simp), ?_⟩
    · exact List.pairwise_cons.mpr ⟨hhigher, hinvariant.increasing⟩
    · intro m hm
      obtain rfl := some.inj hm
      refine ⟨by rw [hused]; exact hn, hnone, ?_⟩
      intro _ counter hcounter
      rw [hrowN, haccepted hok]
      rcases List.mem_cons.mp hcounter with rfl | hearlier
      · exact UInt32.le_refl _
      · exact UInt32.le_of_lt (hhigher counter hearlier)
  · have hstate : state.record source keySeqNumber frame zg' ret =
        { state with zg := zg' } := by
      simp only [ReplayState.record, hread]
      rw [if_neg hrecorded]
    rw [hstate]
    refine ⟨hlinked, hinvariant.increasing, hinvariant.first, ?_⟩
    intro m hm
    obtain ⟨hmused, hmnone, _⟩ := hinvariant.row m hm
    refine ⟨?_, hmnone, hbound m hm⟩
    rw [hused]
    exact Nat.lt_of_lt_of_le hmused hmono

theorem ReplayInvariant.of_neighbor (hinvariant : ReplayInvariant keySeqNumber state)
    (hsame : zg'.neighbor = state.zg.neighbor) :
    ReplayInvariant keySeqNumber { state with zg := zg' } := by
  obtain ⟨hlinked, hincreasing, hfirst, hrow⟩ := hinvariant
  rw [← hsame] at hlinked hrow
  exact ⟨hlinked, hincreasing, hfirst, hrow⟩

theorem ReplayInvariant.receive {state next : ReplayState}
    (hinvariant : ReplayInvariant keySeqNumber state)
    (hsafe : ReplaySafe source keySeqNumber state frame)
    (hstep : state.receive aes128 source keySeqNumber frame = some next) :
    ReplayInvariant keySeqNumber next := by
  obtain ⟨⟨zg', nsdu', ret⟩, hcall, rfl⟩ := map_eq_some_iff.mp hstep
  change ReplayInvariant keySeqNumber (state.record source keySeqNumber frame zg' ret)
  rcases zbNwkUnsecureFrame_eq_some hcall with ⟨_, hsame, hret⟩ | ⟨hdr, hread, hlocated⟩
  · rw [record_of_rejected (by rw [hret]; simp)]
    exact hinvariant.of_neighbor (by rw [hsame])
  · rcases hlocated with ⟨err, hlocate, hret⟩ | ⟨zg₁, n, hlocate, hfrom⟩
    · rw [record_of_rejected (by rw [hret]; simp)]
      exact hinvariant.of_neighbor (locateSender_error hlocate)
    · exact hinvariant.arrive hsafe hread hlocate hfrom

/-- Over any sequence of frames, genuine or forged, the counters of the
accepted frames of a source under a key number increase, as long as every frame
is a safe one. -/
theorem increasing_of_run
    {aes128 : Aes128} {source : IeeeAddr} {keySeqNumber : UInt8} {zg : Globals}
    {frames : List ReceivedFrame} {last : ReplayState}
    (hlinked : RowsLinked zg.neighbor)
    (halong : AlongRun (ReplayState.receive aes128 source keySeqNumber)
      (ReplaySafe source keySeqNumber) ⟨zg, [], none⟩ frames)
    (hrun : run (ReplayState.receive aes128 source keySeqNumber)
      ⟨zg, [], none⟩ frames = some last) :
    last.Increasing := by
  have hstart : ReplayInvariant keySeqNumber ⟨zg, [], none⟩ :=
    ⟨hlinked, List.Pairwise.nil, fun _ => rfl, fun n hn => absurd hn (by simp)⟩
  have hstep : ∀ state frame next, ReplayInvariant keySeqNumber state →
      ReplaySafe source keySeqNumber state frame →
      ReplayState.receive aes128 source keySeqNumber state frame = some next →
      ReplayInvariant keySeqNumber next :=
    fun _ _ _ hinvariant hsafe hnext => hinvariant.receive hsafe hnext
  exact (invariant_of_run hstep hstart halong hrun).increasing

def pairedReceived (frameCounter : UInt32) : ReceivedFrame where
  nsdu :=
    ((zbNwkSecureFrame pairedCipher (pairedSender frameCounter) pairedFrame 9
      .zeroed).bind fun sent => zbBufCutLeft sent.2.2.1 9).getD .zeroed
  mhr := pairedMhr
  mhrLen := 9
  junkRef := 0
  random := emptyKey

theorem rowsLinked_init : RowsLinked zbNwkNeighborInit :=
  ⟨Nat.le_refl _, fun _ hpresent => absurd rfl hpresent⟩

theorem increasing_of_run_paired : ∃ last, run
        (ReplayState.receive pairedCipher (pairedSender 5).extendedAddress 0)
        ⟨pairedReceiver, [], none⟩ [pairedReceived 5, pairedReceived 6] = some last ∧
      last.accepted = [6, 5] ∧ last.Increasing := by
  have hresult : (run (ReplayState.receive pairedCipher (pairedSender 5).extendedAddress 0)
          ⟨pairedReceiver, [], none⟩
          [pairedReceived 5, pairedReceived 6]).map
        ReplayState.accepted = some [6, 5] := by
    decide +kernel
  obtain ⟨last, hrun, haccepted⟩ := map_eq_some_iff.mp hresult
  have hsafe : AlongRun
      (ReplayState.receive pairedCipher (pairedSender 5).extendedAddress 0)
      (ReplaySafe (pairedSender 5).extendedAddress 0)
      ⟨pairedReceiver, [], none⟩ [pairedReceived 5, pairedReceived 6] := by
    decide +kernel
  exact ⟨last, hrun, haccepted, increasing_of_run rowsLinked_init hsafe hrun⟩

/-- The last frame is accepted again. -/
theorem not_increasing_of_replay : ∃ last, run
        (ReplayState.receive pairedCipher (pairedSender 5).extendedAddress 0)
        ⟨pairedReceiver, [], none⟩ [pairedReceived 5, pairedReceived 5] = some last ∧
      last.accepted = [5, 5] ∧ ¬ last.Increasing := by
  have hresult : (run (ReplayState.receive pairedCipher (pairedSender 5).extendedAddress 0)
          ⟨pairedReceiver, [], none⟩
          [pairedReceived 5, pairedReceived 5]).map
        ReplayState.accepted = some [5, 5] := by
    decide +kernel
  obtain ⟨last, hrun, haccepted⟩ := map_eq_some_iff.mp hresult
  refine ⟨last, hrun, haccepted, ?_⟩
  rw [ReplayState.Increasing, haccepted]
  decide

end Zboss
