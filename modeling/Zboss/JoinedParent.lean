import Zboss.HeardParents

/-!
# The parent after joining

What a device knows about its parent after `zb_mlme_associate_confirm` and
after `zb_nlme_rejoin_response`.  An association ends as it should on clean
tables, except that the identifier of the last update becomes zero whatever the
beacon said; a rejoin does not report a channel.
-/

namespace Zboss

open Function Option TransitionSystem

theorem Globals.Placed.ownUpdate
    {zg zg' : Globals} {wanted : Device → Prop} {own : IeeeAddr} {s : ℕ}
    {lock : Bool} {ret : Except RetError ℕ}
    (hplaced : zg.Placed wanted) (hindex : ShortIndex zg.addr)
    (hinv : TranslationInvariant zg.addr)
    (hwanted : ∀ device, wanted device → ∃ ieee, device.ieee = some ieee ∧ ieee ≠ own)
    (hcall : zbAddressUpdate zg.addr own s lock = some (zg'.addr, ret))
    (hneighbor : zg'.neighbor = zg.neighbor) :
    zg'.Placed wanted := by
  intro ref hused hdevice
  rw [hneighbor]
  have hentry' := translation_of_used hused
  rcases zbAddressUpdate_others hindex hcall hentry' with hentry | hreads
  · have hsame := deviceOf_kept hinv (keepsSlots_zbAddressUpdate hcall) hentry hentry'
    rw [hsame] at hdevice
    exact hplaced ref (translation_eq_some.mp hentry).1 hdevice
  · obtain ⟨ieee, hieee, hne⟩ := hwanted _ hdevice
    rw [deviceOf_of_translation hentry'] at hieee
    dsimp only at hieee
    split at hieee
    · rw [hreads] at hieee
      exact absurd (some.inj hieee).symm hne
    · contradiction

structure FoundParent (nt : NeighborTbl) (g : AddrGlobals) (ref : ℕ)
    (short : Option ℕ) (ieee : Option IeeeAddr) : Prop where
  row : nt.addrToNeighbor ref ≠ noNeighbor
  used : (g.addrMap ref).used = true
  short : ∀ addr ∈ short, (g.addrMap ref).addr = addr
  ieee : ∀ addr ∈ ieee, entryIeee g ref = addr

theorem CompressedIn.ne_zero {g g' : AddrGlobals} {a : IeeeAddr} {c : IeeeAddrCompressed}
    (hin : CompressedIn g a g' c) (ha : a.deviceId ≠ .zero) : c ≠ .zero := by
  rintro rfl
  exact ha hin.deviceId.symm

theorem deviceOf_ieeeSearch
    {g g₁ : AddrGlobals} {a : IeeeAddr} {c : IeeeAddrCompressed} {ref s : ℕ}
    (hinv : TranslationInvariant g)
    (hcompress : zbIeeeAddrCompress g a = some (g₁, c)) (hc : c ≠ .zero)
    (hentry : translation g ref = some (c, s)) :
    deviceOf g ref = ⟨some a, if s ≠ unknownShort then some s else none⟩ := by
  have hin := compressedIn_of_zbIeeeAddrCompress hcompress
  obtain ⟨-, hused⟩ := hinv.manufacturers.pointed ref c s hentry hc
  have hdev := ((keepsEntries_zbIeeeAddrCompress hcompress fun _ => False).slots _ hused).2
  rw [deviceOf_of_translation hentry, if_pos hc, zbIeeeAddrDecompress, ← hdev,
    hin.slot, hin.deviceId]

section Found

variable {zg : Globals} {g' : AddrGlobals} {ref s : ℕ} {responder : IeeeAddr}

theorem foundParent_update {found : ℕ} {g : AddrGlobals} {ret : Except RetError ℕ}
    (hindex : ShortIndex g) (hinv : TranslationInvariant g)
    (hsame : SameTranslation zg.addr g)
    (hs : s ≠ unknownShort) (hid : responder.deviceId ≠ .zero)
    (hentry : ∃ c, translation g found = some (c, s))
    (hrow : zg.neighbor.addrToNeighbor found ≠ noNeighbor)
    (hearlier : zg.Placed fun device =>
      device.ieee = some responder ∧ device.short ≠ some s)
    (hcall : zbAddressUpdate g responder s false = some (g', ret)) :
    ∃ last, ret = .ok last ∧
      FoundParent zg.neighbor g' last (some s) (some responder) := by
  obtain ⟨c₀, hentry₀⟩ := hentry
  have hsearch := shortSearch_of_translation hindex hinv hs hentry₀
  cases ret with
  | error err =>
    obtain ⟨g₁, c, hcompress, hcases⟩ := zbAddressUpdate_eq_some hcall
    rcases hcases with ⟨_, _, _, -, -, hok, -⟩ | ⟨hnone, -⟩
    · contradiction
    · rw [shortSearch_compressed hcompress, hsearch] at hnone
      contradiction
  | ok last =>
    refine ⟨last, rfl, ?_⟩
    obtain ⟨g₁, c, removed, hcompress, hupdated⟩ := zbAddressUpdate_updated hindex hcall
    obtain ⟨hinv₁, hin, hmap⟩ := hinv.compressed hcompress
    have hlast : translation g' last = some (c, s) := by rw [hupdated.map, update_self]
    obtain ⟨hused, -, haddr⟩ := translation_eq_some.mp hlast
    refine ⟨?_, hused, ?_, ?_⟩
    · have hmerge := hupdated.merge
      rw [shortSearch_compressed hcompress, hsearch] at hmerge
      rcases hmerge.ref_found with ⟨hnone, -⟩ | hshort | ⟨hlong, -⟩
      · contradiction
      · obtain rfl := some.inj hshort
        exact hrow
      · obtain ⟨-, hused₁, hieee⟩ := ieeeSearch_eq_some hlong
        have hentry : translation g last =
            some (c, (g₁.addrMap last).addr) := by
          rw [← hmap]
          exact translation_eq_some.mpr ⟨hused₁, hieee, rfl⟩
        by_cases hboth : (g₁.addrMap last).addr = s
        · rw [hboth] at hentry
          rw [hinv.unique.short last found c c₀ s hentry hentry₀ hs]
          exact hrow
        · have hdevice := deviceOf_ieeeSearch hinv hcompress (hin.ne_zero hid) hentry
          have hkept : deviceOf zg.addr last = deviceOf g last := by
            apply deviceOf_kept hinv (s := (g₁.addrMap last).addr) (c := c) ?_ hentry
            · rw [← hsame.translation_eq]
              exact hentry
            · intro i hi
              rw [← hsame.usedManufacturer, ← hsame.devManufacturer]
              exact ⟨hi, rfl⟩
          apply hearlier last
          · rw [← (hsame.entry last).used]
            exact (translation_eq_some.mp hentry).1
          · rw [hkept, hdevice]
            refine ⟨rfl, ?_⟩
            dsimp only
            split
            · exact fun heq => hboth (some.inj heq)
            · exact fun heq => nomatch heq
    · intro addr hmem
      rw [haddr, some.inj hmem]
    · intro addr hmem
      rw [entryIeee_of_translation hlast, hupdated.devManufacturer, hin.slot, hin.deviceId]
      exact some.inj hmem

theorem foundParent_short
    (hindex : ShortIndex zg.addr) (hinv : TranslationInvariant zg.addr)
    (hs : s ≠ unknownShort)
    (hid : responder ≠ .zero → responder.deviceId ≠ .zero)
    (hplaced : zg.Placed fun device => device.short = some s)
    (hearlier : responder ≠ .zero → zg.Placed fun device =>
      device.ieee = some responder ∧ device.short ≠ some s)
    (hfind : JoinDevice.findParent zg.addr s responder responder = some (g', ref)) :
    FoundParent zg.neighbor g' ref (some s)
      (if responder = .zero then none else some responder) := by
  unfold JoinDevice.findParent at hfind
  rw [if_neg hs] at hfind
  obtain ⟨⟨g, ret⟩, hcall, hrest⟩ := bind_eq_some_iff.mp hfind
  rcases zbAddressByShort_eq_some hcall with ⟨found, hsearch, rfl, hlock⟩ |
    ⟨-, -, -, rfl⟩ | ⟨-, hcreate, -⟩
  · obtain ⟨⟨-, hused, -⟩, haddr⟩ := hindex.shortSearch_eq_some hsearch
    have hsame := (sameTable_markClock zg.addr found).sameTranslation.trans
      (sameTranslation_lockResult hlock)
    have hentry := translation_of_used hused
    rw [haddr] at hentry
    have hrow : zg.neighbor.addrToNeighbor found ≠ noNeighbor := by
      apply hplaced found hused
      rw [deviceOf_of_translation hentry]
      exact if_pos hs
    dsimp only at hrest
    by_cases hzero : responder = .zero
    · rw [if_neg (fun hboth => hboth.1 hzero)] at hrest
      obtain ⟨rfl, rfl⟩ := some_pair_inj hrest
      rw [if_pos hzero]
      refine ⟨hrow, ?_, ?_, fun _ hmem => nomatch hmem⟩
      · rw [(hsame.entry found).used]
        exact hused
      · intro addr hmem
        rw [(hsame.entry found).addr, haddr, some.inj hmem]
    · rw [if_pos ⟨hzero, hs⟩] at hrest
      obtain ⟨⟨g₂, ret₂⟩, hcall₂, hlast⟩ := bind_eq_some_iff.mp hrest
      obtain ⟨last, rfl, hfound⟩ := foundParent_update
        (hindex.sameTranslation hsame) (hinv.sameTranslation hsame) hsame hs
        (hid hzero) ⟨_, by rw [hsame.translation_eq]; exact hentry⟩ hrow
        (hearlier hzero) hcall₂
      obtain ⟨rfl, rfl⟩ := some_pair_inj hlast
      rw [if_neg hzero]
      exact hfound
  · contradiction
  · contradiction

theorem foundParent_ieee {a : IeeeAddr}
    (hinv : TranslationInvariant zg.addr) (ha : a.deviceId ≠ .zero)
    (hplaced : zg.Placed fun device => device.ieee = some a)
    (hfind : JoinDevice.findParent zg.addr unknownShort a responder = some (g', ref)) :
    FoundParent zg.neighbor g' ref none (some a) := by
  unfold JoinDevice.findParent at hfind
  rw [if_pos rfl] at hfind
  obtain ⟨⟨g, ret⟩, hcall, hrest⟩ := bind_eq_some_iff.mp hfind
  cases ret with
  | error err => contradiction
  | ok found =>
    dsimp only at hrest
    rw [if_neg (fun hboth => hboth.2 rfl)] at hrest
    obtain ⟨rfl, rfl⟩ := some_pair_inj hrest
    obtain ⟨g₁, c, hcompress, hcases⟩ := zbAddressByIeee_eq_some hcall
    obtain ⟨hinv₁, hin, hmap⟩ := hinv.compressed hcompress
    rcases hcases with ⟨_, hsearch, hok, hlock⟩ | ⟨-, -, -, herror⟩ | ⟨-, hcreate, -⟩
    · obtain rfl := Except.ok.inj hok
      obtain ⟨-, hused, hieee⟩ := ieeeSearch_eq_some hsearch
      have hsame := (sameTable_markClock g₁ found).sameTranslation.trans
        (sameTranslation_lockResult hlock)
      have hentry₁ : translation g₁ found = some (c, (g₁.addrMap found).addr) :=
        translation_eq_some.mpr ⟨hused, hieee, rfl⟩
      have hentry := hentry₁
      rw [hmap] at hentry
      refine ⟨?_, ?_, (fun _ hmem => nomatch hmem), ?_⟩
      · apply hplaced found (translation_eq_some.mp hentry).1
        rw [deviceOf_ieeeSearch hinv hcompress (hin.ne_zero ha) hentry]
      · rw [(hsame.entry found).used]
        exact hused
      · intro addr hmem
        rw [entryIeee, (hsame.entry found).ieeeAddr, hieee,
          zbIeeeAddrDecompress, hsame.devManufacturer, hin.slot, hin.deviceId]
        exact some.inj hmem
    · contradiction
    · contradiction

end Found

theorem markParent_found {dev : JoinDevice} {ref : ℕ} {result : JoinDevice × Bool}
    (hrows : RowsSound dev.zg.neighbor)
    (hnone : ∀ n, ¬ dev.zg.neighbor.IsParentRow n)
    (hrow : dev.zg.neighbor.addrToNeighbor ref ≠ noNeighbor)
    (hmark : dev.markParent ref = some result) :
    result.2 = true ∧ (∃ neighbor,
        result.1 = { dev with zg := { dev.zg with neighbor := neighbor } } ∧
        neighbor.baseNeighborUsed = dev.zg.neighbor.baseNeighborUsed ∧
        (∀ n, neighbor.IsParentRow n ↔ n = neighbor.addrToNeighbor ref) ∧
        (neighbor.baseNeighbor (neighbor.addrToNeighbor ref)).addrRef = ref) := by
  unfold JoinDevice.markParent zbNwkNeighborGet at hmark
  dsimp only at hmark
  rw [if_neg hrow] at hmark
  obtain rfl := some.inj hmark
  obtain ⟨hlt, hused, href⟩ := hrows.linked ref hrow
  refine ⟨rfl, _, rfl, rfl, ?_, ?_⟩
  · intro n
    dsimp only [NeighborTbl.setRow, NeighborTbl.IsParentRow]
    by_cases heq : n = dev.zg.neighbor.addrToNeighbor ref
    · rw [heq, update_self]
      exact ⟨fun _ => rfl, fun _ => ⟨hlt, hused, rfl⟩⟩
    · rw [update_of_ne heq]
      exact ⟨fun hn => absurd hn (hnone n), fun hn => absurd hn heq⟩
  · dsimp only [NeighborTbl.setRow]
    rw [update_self]
    exact href

/-! ## Association -/

namespace JoinDevice

def associated (dev : JoinDevice) (p : ℕ) (extPanId : ExtPanId)
    (request : AssociateConfirm) (addr : AddrGlobals) : JoinDevice :=
  let row := dev.zg.neighbor.extNeighbor p
  let joined : JoinDevice :=
    { dev with
      zg := { dev.zg with addr := addr, joined := true }
      extPanId := extPanId
      networkAddress := request.assocShortAddress
      nwkUpdateId := dev.rowUpdateId p }
  joined.setDepth (if row.depth ≠ 0xF then row.depth + 1 else row.depth)

def rowsToMove (dev : JoinDevice) (m : ℕ) : ℕ :=
  ((extNeighbors dev.zg.neighbor).map (rowsFor m)).sum

/-- The tables are sound, the base table has room, and its rows do not reach
the channel in the entry of the parent.  No row is that of a parent, the
addresses of the parent have a device id and are not its own, and an earlier
entry of the parent with another short address has a row. -/
structure JoinsCleanly (dev : JoinDevice) (p : ℕ) (beacon : ParentBeacon)
    (request : AssociateConfirm) : Prop where
  index : ShortIndex dev.zg.addr
  entries : TranslationInvariant dev.zg.addr
  rows : RowsSound dev.zg.neighbor
  assigned : request.assocShortAddress ≠ unknownShort
  noStaleCopy : (AddressCall.update dev.zg.extendedAddress
    request.assocShortAddress true).NoStaleCopy dev.zg.addr
  room : dev.zg.neighbor.baseNeighborUsed < dev.zg.neighbor.baseNeighborSize
  apart : (dev.zg.neighbor.baseNeighborUsed +
        dev.rowsToMove (dev.zg.neighbor.extNeighbor p).panidRef) *
      neighborTblEntSize ≤
        roundTo4 (dev.zg.neighbor.baseNeighborSize * neighborTblEntSize) +
          p * extNeighborTblEntSize + 10
  noParent : ∀ n, ¬ dev.zg.neighbor.IsParentRow n
  source : beacon.source ≠ .short unknownShort
  deviceId : ∀ addr ∈ beacon.knownIeee request.parentAddress, addr.deviceId ≠ .zero
  notOwn : ∀ addr ∈ beacon.knownIeee request.parentAddress, addr ≠ dev.zg.extendedAddress
  placed : ∀ s, beacon.source = .short s → dev.zg.Placed fun device =>
      ∃ addr ∈ beacon.knownIeee request.parentAddress,
        device.ieee = some addr ∧ device.short ≠ some s

section Association

variable {dev stopped last : JoinDevice} {p : ℕ} {extPanId : ExtPanId}
  {request : AssociateConfirm} {left : JoinLeftovers} {confirm : JoinConfirm}

theorem markParent_eq_some {ref : ℕ} {result : JoinDevice × Bool}
    (hmark : dev.markParent ref = some result) :
    ∃ zg, result.1 = { dev with zg := zg } := by
  unfold markParent at hmark
  obtain ⟨⟨zg, ret⟩, -, hrest⟩ := bind_eq_some_iff.mp hmark
  cases ret with
  | ok n =>
    obtain rfl := some.inj hrest
    exact ⟨_, rfl⟩
  | error err =>
    obtain rfl := some.inj hrest
    exact ⟨_, rfl⟩

theorem exneighborStop_eq_some
    (hstop : dev.exneighborStop left = some stopped) {ref : Fin 8}
    (hpanid : zbAddressGetPanIdRef dev.panMap dev.extPanId = some ref) :
    ∃ zg, zbNwkExneighborStop dev.zg ref.val left.rows = some zg ∧
      stopped = { dev with zg := zg } := by
  unfold exneighborStop at hstop
  rw [hpanid] at hstop
  obtain ⟨zg, hzg, rfl⟩ := map_eq_some_iff.mp hstop
  exact ⟨zg, hzg, rfl⟩

section

variable
  (hcall : dev.zbMlmeAssociateConfirm p extPanId request left = some (last, confirm))

include hcall

theorem zbMlmeAssociateConfirm_eq_some : ∃ addr ret stopped g ref marked found,
      zbAddressUpdate dev.zg.addr dev.zg.extendedAddress
          request.assocShortAddress true = some (addr, ret) ∧
        (dev.associated p extPanId request addr).exneighborStop left = some stopped ∧
        findParent stopped.zg.addr (dev.zg.neighbor.extNeighbor p).shortAddr
            (if (dev.zg.neighbor.extNeighbor p).shortAddr = unknownShort then
              zbIeeeAddrDecompress addr (dev.zg.neighbor.extNeighbor p).longAddr
            else request.parentAddress)
            request.parentAddress = some (g, ref) ∧
        { stopped with
          zg := { stopped.zg with addr := g } }.markParent ref = some (marked, found) ∧
        last = (if found then { marked with parent := ref } else marked) ∧
        confirm =
          { success := true
            networkAddress := request.assocShortAddress
            extendedPanId := extPanId
            activeChannel := some (dev.staleChannel p marked.zg.neighbor left) } := by
  unfold zbMlmeAssociateConfirm at hcall
  obtain ⟨⟨addr, ret⟩, hupdate, hcall⟩ := bind_eq_some_iff.mp hcall
  obtain ⟨stopped, hstop, hcall⟩ := bind_eq_some_iff.mp hcall
  obtain ⟨⟨g, ref⟩, hfind, hcall⟩ := bind_eq_some_iff.mp hcall
  obtain ⟨⟨marked, found⟩, hmark, hcall⟩ := bind_eq_some_iff.mp hcall
  obtain ⟨rfl, rfl⟩ := some_pair_inj hcall
  exact ⟨addr, ret, stopped, g, ref, marked, found, hupdate, hstop, hfind, hmark, rfl, rfl⟩

theorem associated_nib : last.nwkUpdateId = dev.rowUpdateId p ∧ last.tree =
        ({ dev with nwkUpdateId := 0 }.setDepth
          (if (dev.zg.neighbor.extNeighbor p).depth ≠ 0xF then
            (dev.zg.neighbor.extNeighbor p).depth + 1
          else (dev.zg.neighbor.extNeighbor p).depth)).tree := by
  obtain ⟨addr, ret, stopped, g, ref, marked, found, -, hstop, -, hmark, rfl,
    -⟩ := zbMlmeAssociateConfirm_eq_some hcall
  obtain ⟨zg, -, rfl⟩ := map_eq_some_iff.mp hstop
  obtain ⟨zg', rfl⟩ := markParent_eq_some hmark
  cases found with
  | true => exact ⟨rfl, rfl⟩
  | false => exact ⟨rfl, rfl⟩

end

end Association

section Parent

variable {dev last : JoinDevice} {p : ℕ} {beacon : ParentBeacon}
  {request : AssociateConfirm} {left : JoinLeftovers} {confirm : JoinConfirm}
  {addr : AddrGlobals} {ret : Except RetError ℕ} {zg : Globals} {ref : Fin 8}

theorem moveSound_associated (hclean : dev.JoinsCleanly p beacon request)
    (hupdate : zbAddressUpdate dev.zg.addr dev.zg.extendedAddress
      request.assocShortAddress true = some (addr, ret)) :
    MoveSound (dev.associated p beacon.extendedPanid request addr).zg :=
  ⟨hclean.index.zbAddressUpdate hclean.assigned hclean.noStaleCopy hupdate,
    hclean.entries.zbAddressUpdate hclean.index hclean.assigned hupdate,
    hclean.rows, hclean.room⟩

theorem mem_extNeighbors {nt : NeighborTbl} {row : ExtNeighborTblEnt} :
    row ∈ extNeighbors nt ↔ ∃ i, i < nt.extNeighborUsed ∧ nt.extNeighbor i = row := by
  simp only [extNeighbors, List.mem_map, List.mem_range]

theorem stopped_associated
    (hheard : dev.EntriesHeard) (hclean : dev.JoinsCleanly p beacon request)
    (hupdate : zbAddressUpdate dev.zg.addr dev.zg.extendedAddress
      request.assocShortAddress true = some (addr, ret))
    (hstop : zbNwkExneighborStop
      (dev.associated p beacon.extendedPanid request addr).zg ref.val left.rows =
        some zg) :
    Stopped (dev.associated p beacon.extendedPanid request addr).zg ref.val
      zg := by
  refine stopped_zbNwkExneighborStop rfl (moveSound_associated hclean hupdate) ?_ hstop
  intro row hmem
  obtain ⟨i, hi, rfl⟩ := mem_extNeighbors.mp hmem
  exact hheard.oneAddress i hi

section

variable (hheard : dev.EntriesHeard) (hp : p < dev.zg.neighbor.extNeighborUsed)
  (hrow : dev.HeardRow p beacon) (hclean : dev.JoinsCleanly p beacon request)

include hheard hp hrow hclean

theorem foundParent_associated {g : AddrGlobals} {found : ℕ}
    (hupdate : zbAddressUpdate dev.zg.addr dev.zg.extendedAddress
      request.assocShortAddress true = some (addr, ret))
    (hmine : (dev.zg.neighbor.extNeighbor p).panidRef = ref.val)
    (hstopped : Stopped (dev.associated p beacon.extendedPanid request addr).zg ref.val zg)
    (hfind : findParent zg.addr (dev.zg.neighbor.extNeighbor p).shortAddr
      (if (dev.zg.neighbor.extNeighbor p).shortAddr = unknownShort then
        zbIeeeAddrDecompress addr (dev.zg.neighbor.extNeighbor p).longAddr
      else request.parentAddress) request.parentAddress = some (g, found)) :
    FoundParent zg.neighbor g found (match beacon.source with
        | .short s => some s
        | .ieee _ => none)
      (beacon.knownIeee request.parentAddress) := by
  have hone := hheard.oneAddress p hp
  have hmem : dev.zg.neighbor.extNeighbor p ∈
      extNeighbors (dev.associated p beacon.extendedPanid request addr).zg.neighbor :=
    mem_extNeighbors.mpr ⟨p, hp, rfl⟩
  have hsender := hrow.isSender
  have hplaced := hclean.placed
  have hid := hclean.deviceId
  have hnotOwn := hclean.notOwn
  have hknownSource := hclean.source
  unfold ParentBeacon.knownIeee at hplaced hid hnotOwn ⊢
  cases hsource : beacon.source with
  | short s =>
    simp only [hsource, BeaconSource.Matches] at hsender hplaced hid ⊢
    simp only [hsource] at hnotOwn hknownSource
    have hs : s ≠ unknownShort := fun heq => hknownSource (by rw [heq])
    rw [hsender, if_neg hs] at hfind
    apply foundParent_short hstopped.index hstopped.entries hs ?_ ?_ ?_ hfind
    · intro hzero
      rw [if_neg hzero] at hid
      exact hid _ rfl
    · apply hstopped.found _ hmem hmine
      intro zg₁ hsound _
      rw [← hsender] at hs ⊢
      exact findsAll_short hsound.index hsound.entries hone hs
    · intro hzero
      rw [if_neg hzero] at hplaced hnotOwn
      have hbefore := hplaced s rfl
      have hupdated := @Globals.Placed.ownUpdate dev.zg
        (dev.associated p beacon.extendedPanid request addr).zg _ _ _ _ _
        hbefore hclean.index hclean.entries
        (fun device hdevice => by
          obtain ⟨ieee, hmem, hieee, -⟩ := hdevice
          exact ⟨ieee, hieee, hnotOwn ieee hmem⟩) hupdate rfl
      have hafter := hupdated.moved
        (moveSound_associated hclean hupdate).entries hstopped.moved
      intro other hused hdevice
      exact hafter other hused ⟨_, rfl, hdevice⟩
  | ieee a =>
    simp only [hsource, BeaconSource.Matches] at hsender hid ⊢
    have ha : a.deviceId ≠ .zero := hid a rfl
    have hunknown : (dev.zg.neighbor.extNeighbor p).shortAddr =
        unknownShort := by
      by_contra hshort
      apply ha
      rw [← hsender.reads, hone hshort]
      rfl
    obtain ⟨_, _, heffect⟩ := zbAddressUpdate_effect hupdate
    have hreads := hsender.keeps heffect.keeps
    rw [hunknown, if_pos rfl, hreads.reads] at hfind
    apply foundParent_ieee hstopped.entries ha ?_ hfind
    apply hstopped.found _ hmem hmine
    intro zg₁ hsound hmoved
    have hreads₁ := hreads.keeps hmoved.keeps
    rw [← hreads₁.reads]
    exact findsAll_ieee hsound.entries hone hunknown

theorem joinedTo_of_joinsCleanly (hid : beacon.nwkUpdateId = 0)
    (hcall : dev.zbMlmeAssociateConfirm p beacon.extendedPanid request left =
      some (last, confirm)) :
    last.JoinedTo confirm beacon request.parentAddress := by
  obtain ⟨hupdateId, htree⟩ := associated_nib hcall
  obtain ⟨addr, ret, stopped, g, found, marked, isFound, hupdate, hstop, hfind,
    hmark, rfl, rfl⟩ := zbMlmeAssociateConfirm_eq_some hcall
  obtain ⟨ref, hpanid, hmine⟩ := hrow.panidRef
  obtain ⟨zg, hzg, rfl⟩ :=
    exneighborStop_eq_some hstop (show zbAddressGetPanIdRef _ _ = some ref from hpanid)
  have hstopped := stopped_associated hheard hclean hupdate hzg
  have hparent := foundParent_associated hheard hp hrow hclean hupdate hmine hstopped hfind
  obtain ⟨rfl, neighbor, rfl, hused, hparents, haddrRef⟩ :=
    markParent_found hstopped.rows
      (fun n hn => hclean.noParent n (hstopped.moved.parents n hn)) hparent.row
      hmark
  have hdepth := beacon.depth_lt
  constructor
  · rw [htree, hrow.depth]
    dsimp only [setDepth]
    split <;> omega
  · rw [htree]
    rfl
  · rw [hupdateId, hheard.updateId p hp, hid]
  · exact hparents
  · exact haddrRef
  · exact hparent.used
  · intro s hsource
    apply hparent.short
    rw [hsource]
    rfl
  · exact hparent.ieee
  · have hapart := hclean.apart
    have hbase := hstopped.used
    rw [hmine] at hapart
    have hreach : neighbor.baseNeighborUsed * neighborTblEntSize ≤
        roundTo4 (dev.zg.neighbor.baseNeighborSize * neighborTblEntSize) +
          p * extNeighborTblEntSize + 10 := by
      refine le_trans (Nat.mul_le_mul_right _ ?_) hapart
      rw [hused]
      exact hbase
    rw [← hrow.channel]
    exact congrArg some (if_pos hreach)

end

end Parent

theorem activeChannel_zbNlmeRejoinResponse
    {dev last : JoinDevice} {p : ℕ} {extPanId : ExtPanId}
    {frame : RejoinResponseFrame} {left : JoinLeftovers} {confirm : JoinConfirm}
    (hcall : dev.zbNlmeRejoinResponse p extPanId frame left = some (last, some confirm)) :
    confirm.activeChannel = none := by
  unfold zbNlmeRejoinResponse at hcall
  dsimp only at hcall
  split at hcall
  · obtain ⟨_, -, hcall⟩ := bind_eq_some_iff.mp hcall
    obtain ⟨_, -, hcall⟩ := bind_eq_some_iff.mp hcall
    obtain ⟨_, -, hcall⟩ := bind_eq_some_iff.mp hcall
    obtain ⟨_, -, hcall⟩ := bind_eq_some_iff.mp hcall
    obtain ⟨-, heq⟩ := some_pair_inj hcall
    rw [← some.inj heq]
    rfl
  · exact nomatch (some_pair_inj hcall).2

end JoinDevice

open JoinDevice

/-- An association to a parent which was heard leaves the device as it should
be if the tables are clean and the identifier of the last update is zero, and
never for another identifier.  A rejoin never does. -/
theorem joinedTo_of_join (start dev : JoinDevice) (beacons : List ParentBeacon) (p : ℕ)
    (beacon : ParentBeacon) (left : JoinLeftovers)
    (hempty : start.zg.neighbor.extNeighborUsed = 0)
    (hrun : run JoinDevice.hear start beacons = some dev)
    (hp : p < dev.zg.neighbor.extNeighborUsed)
    (hparent : dev.heard p = some beacon) :
    (∀ request last confirm,
      dev.zbMlmeAssociateConfirm p beacon.extendedPanid request left =
          some (last, confirm) →
        (last.JoinedTo confirm beacon request.parentAddress → beacon.nwkUpdateId = 0) ∧
          (dev.JoinsCleanly p beacon request → beacon.nwkUpdateId = 0 →
            last.JoinedTo confirm beacon request.parentAddress)) ∧
      ∀ rejoining extPanId frame last confirm,
        JoinDevice.zbNlmeRejoinResponse rejoining p extPanId frame left =
            some (last, some confirm) →
          ¬ last.JoinedTo confirm beacon (responderIeee frame) := by
  have hheard := entriesHeard_of_run hempty hrun
  have hrow := hheard.heard p beacon hp hparent
  constructor
  · intro request last confirm hcall
    constructor
    · intro hjoined
      rw [← hjoined.updateId, (associated_nib hcall).1, hheard.updateId p hp]
    · intro hclean hid
      exact joinedTo_of_joinsCleanly hheard hp hrow hclean hid hcall
  · intro rejoining extPanId frame last confirm hcall hjoined
    have hchannel := hjoined.channel
    rw [activeChannel_zbNlmeRejoinResponse hcall] at hchannel
    contradiction

theorem hear_short {dev next : JoinDevice} {beacon : ParentBeacon} {s : ℕ}
    (hsource : beacon.source = .short s)
    (hhear : dev.hear beacon = some next) :
    next.zg.addr = dev.zg.addr ∧
      SameBaseTable dev.zg.neighbor next.zg.neighbor := by
  unfold JoinDevice.hear at hhear
  split at hhear
  · obtain rfl := some.inj hhear
    exact ⟨rfl, .refl _⟩
  · rename_i panMap ref hset
    obtain ⟨⟨zg, ret⟩, hcall, hrest⟩ := bind_eq_some_iff.mp hhear
    rw [hsource] at hcall
    have hbase := zbNwkExneighborByShort_base dev.zg ref.val s
    have hresult : zbNwkExneighborByShort dev.zg ref.val s = (zg, ret) := some.inj hcall
    rw [hresult] at hbase
    cases ret with
    | error err =>
      obtain rfl := some.inj hrest
      exact hbase
    | ok i =>
      obtain rfl := some.inj hrest
      obtain ⟨haddr, hfilled⟩ := fillExtNeighbor_base zg (.ok i) ref.val beacon.info
      exact ⟨haddr.trans hbase.1, hbase.2.trans hfilled⟩

theorem heard_first {dev next : JoinDevice} {beacon : ParentBeacon}
    (hempty : dev.zg.neighbor.extNeighborUsed = 0)
    (hhear : dev.hear beacon = some next)
    (hused : 0 < next.zg.neighbor.extNeighborUsed) :
    next.heard 0 = some beacon := by
  unfold JoinDevice.hear at hhear
  split at hhear
  · obtain rfl := some.inj hhear
    omega
  · obtain ⟨⟨zg, ret⟩, hcall, hrest⟩ := bind_eq_some_iff.mp hhear
    cases ret with
    | error err =>
      obtain rfl := some.inj hrest
      dsimp only at hused
      rw [(exneighborOf_error hcall).2] at hused
      omega
    | ok i =>
      obtain rfl := some.inj hrest
      have hi : i = 0 := by
        rcases (foundEntry_exneighborOf hcall).place with ⟨hi, -⟩ | ⟨hi, -⟩
        · omega
        · rw [hi, hempty]
      rw [hi]
      dsimp only
      rw [update_self]

def joiningIeee : IeeeAddr := ⟨⟨9, 0, 0⟩, ⟨1, 2, 3, 4, 5⟩⟩

def parentIeee : IeeeAddr := ⟨⟨7, 0, 0⟩, ⟨1, 1, 1, 1, 1⟩⟩

def joinStart : JoinDevice where
  zg :=
    { Globals.init joiningIeee with
      neighbor :=
        { zbNwkNeighborInit with
          baseNeighborSize := 16
          extNeighborSize := 14 } }
  tree := ⟨4, 2, 2, 0, 0, 0, 0, 0xFFFF, false⟩
  panMap _ := none
  state := .disc
  nwkUpdateId := 0
  extPanId := 0
  networkAddress := 0xFFFF
  parent := 0
  rowUpdateId _ := 0
  rowChannel _ := 0
  heard _ := none

def joinBeacon (nwkUpdateId : UInt8) : ParentBeacon where
  srcPanId := 1
  extendedPanid := 77
  source := .short 7
  channel := ⟨15, by decide⟩
  nwkUpdateId := nwkUpdateId
  info := ⟨200, 1, 1, .router⟩
  depth_lt := by decide

def joinRequest : AssociateConfirm := ⟨20, parentIeee⟩

def joinLeftovers : JoinLeftovers := ⟨fun _ => .zero, 0, 0⟩

theorem rowsSound_joinStart : RowsSound joinStart.zg.neighbor :=
  ⟨by decide, by decide, fun _ href => absurd rfl href,
    fun _ hn => absurd hn (Nat.not_lt_zero _)⟩

theorem joinsCleanly_joinStart {dev : JoinDevice} {nwkUpdateId : UInt8}
    (hhear : joinStart.hear (joinBeacon nwkUpdateId) = some dev)
    (hrows : dev.rowsToMove (dev.zg.neighbor.extNeighbor 0).panidRef = 1)
    (hown : dev.zg.extendedAddress = joiningIeee) :
    dev.JoinsCleanly 0 (joinBeacon nwkUpdateId) joinRequest := by
  obtain ⟨haddr, hbase⟩ := @hear_short _ _ _ 7 rfl hhear
  have hzeroed : dev.zg.addr = AddrGlobals.zeroed := haddr
  have hused : dev.zg.neighbor.baseNeighborUsed = 0 := hbase.baseNeighborUsed
  have hsize : dev.zg.neighbor.baseNeighborSize = 16 := hbase.baseNeighborSize
  refine ⟨?_, ?_, hbase.rowsSound rowsSound_joinStart, by decide, ?_, ?_, ?_, ?_,
    (fun heq => nomatch heq), ?_, ?_, ?_⟩
  · rw [hzeroed]
    exact shortIndex_zeroed
  · rw [hzeroed]
    exact translationInvariant_zeroed
  · rw [hzeroed, hown]
    decide +kernel
  · rw [hused, hsize]
    decide
  · rw [hused, hsize, hrows]
    decide
  · intro n hn
    rw [NeighborTbl.IsParentRow, hused] at hn
    exact absurd hn.1 (Nat.not_lt_zero n)
  · intro addr hmem
    rw [← some.inj hmem]
    decide
  · intro addr hmem
    rw [← some.inj hmem, hown]
    decide
  · intro s _ ref hentry
    rw [hzeroed] at hentry
    contradiction

def joinOutcome (nwkUpdateId : UInt8) :
    Option (JoinDevice × JoinDevice × JoinConfirm) := do
  let dev ← run JoinDevice.hear joinStart [joinBeacon nwkUpdateId]
  let result ← dev.zbMlmeAssociateConfirm 0 77 joinRequest joinLeftovers
  some (dev, result)

theorem joinOutcome_observed : (joinOutcome 0).map (fun outcome =>
        (outcome.1.rowsToMove (outcome.1.zg.neighbor.extNeighbor 0).panidRef,
          outcome.1.zg.extendedAddress,
          outcome.1.zg.neighbor.extNeighborUsed)) = some (1, joiningIeee, 1) ∧
      (joinOutcome 5).map (fun outcome => outcome.2.1.nwkUpdateId) =
        some 0 := by
  decide +kernel

theorem joinOutcome_eq_some
    {nwkUpdateId : UInt8} {dev last : JoinDevice} {confirm : JoinConfirm}
    (houtcome : joinOutcome nwkUpdateId = some (dev, last, confirm)) :
    run JoinDevice.hear joinStart [joinBeacon nwkUpdateId] = some dev ∧
      dev.zbMlmeAssociateConfirm 0 77 joinRequest joinLeftovers =
        some (last, confirm) := by
  unfold joinOutcome at houtcome
  obtain ⟨dev', hrun, hrest⟩ := bind_eq_some_iff.mp houtcome
  obtain ⟨result, hcall, heq⟩ := bind_eq_some_iff.mp hrest
  obtain ⟨rfl, rfl⟩ := some_pair_inj heq
  exact ⟨hrun, hcall⟩

/-- The association to a parent with the identifier 0. -/
theorem joinedTo_of_join_first : ∃ dev last confirm,
      run JoinDevice.hear joinStart [joinBeacon 0] = some dev ∧
        dev.zbMlmeAssociateConfirm 0 77 joinRequest joinLeftovers = some (last, confirm) ∧
        last.JoinedTo confirm (joinBeacon 0) parentIeee := by
  obtain ⟨⟨dev, last, confirm⟩, houtcome, hobserved⟩ :=
    map_eq_some_iff.mp joinOutcome_observed.1
  obtain ⟨hrun, hcall⟩ := joinOutcome_eq_some houtcome
  obtain ⟨hrows, hrest⟩ := Prod.mk.inj hobserved
  obtain ⟨hown, hused⟩ := Prod.mk.inj hrest
  obtain ⟨next, hhear, hlast⟩ := run_cons_eq_some.mp hrun
  obtain rfl := some.inj hlast
  have hp : 0 < next.zg.neighbor.extNeighborUsed := by
    rw [hused]
    decide
  refine ⟨next, last, confirm, hrun, hcall, ?_⟩
  exact ((joinedTo_of_join joinStart next [joinBeacon 0] 0 (joinBeacon 0)
    joinLeftovers rfl hrun hp (heard_first rfl hhear hp)).1 joinRequest last
      confirm hcall).2 (joinsCleanly_joinStart hhear hrows hown) rfl

/-- The association to a parent with the identifier 5. -/
theorem not_joinedTo_fifth : ¬ ∀ dev last confirm,
      run JoinDevice.hear joinStart [joinBeacon 5] = some dev →
        dev.zbMlmeAssociateConfirm 0 77 joinRequest joinLeftovers = some (last, confirm) →
          last.JoinedTo confirm (joinBeacon 5) parentIeee := by
  intro hclaim
  obtain ⟨⟨dev, last, confirm⟩, houtcome, hobserved⟩ :=
    map_eq_some_iff.mp joinOutcome_observed.2
  obtain ⟨hrun, hcall⟩ := joinOutcome_eq_some houtcome
  have hupdateId := (hclaim _ last confirm hrun hcall).updateId
  rw [show last.nwkUpdateId = 0 from hobserved] at hupdateId
  exact absurd hupdateId (by decide)

end Zboss
