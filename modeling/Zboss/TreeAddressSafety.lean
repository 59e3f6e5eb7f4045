import Zboss.TreeAddresses
import Mathlib.Data.List.Nodup

/-!
# Safety of distributed address assignment

Each device of a network has a place, the path of slots which leads to it, and
its address is the one of its place.  Places are never given twice, and a
subtree lies in the block of its router.
-/

namespace Zboss

open Option TreeNib TreeAddressing TransitionSystem

structure RouterAt (cm rm lm : ℕ) (nib : TreeNib) (path : List Slot) : Prop where
  maxChildren : nib.maxChildren = cm
  maxRouters : nib.maxRouters = rm
  maxDepth : nib.maxDepth = lm
  inner : ∃ slots, path = innerPath slots ∧ (∀ i ∈ slots, i < rm) ∧
    slots.length = nib.depth
  depth : nib.depth ≤ lm
  cskip : nib.depth < lm → nib.cskip = blockSize rm (cm - rm) (lm - nib.depth - 1)

def PlaceExists (cm rm lm : ℕ) (path : List Slot) : Prop :=
  Valid rm (cm - rm) lm path ∨
    ∃ j, path = [.leaf j] ∧ 0 < lm ∧ offset rm (cm - rm) lm path < 2 ^ 16

structure Located (cm rm lm : ℕ) (dev : TreeDevice) (path : List Slot) : Prop where
  address : dev.nib.macShortAddress = offset rm (cm - rm) lm path
  place : PlaceExists cm rm lm path
  router : dev.isRouter = true → RouterAt cm rm lm dev.nib path

structure Placement (cm rm lm : ℕ) (net : TreeNetwork)
    (placed : List (TreeDevice × List Slot)) : Prop where
  devices : placed.map Prod.fst = net
  unique : (placed.map Prod.snd).Nodup
  located : ∀ entry ∈ placed, Located cm rm lm entry.1 entry.2
  parent : ∀ entry ∈ placed, ∀ p, entry.1.parent = some p →
    ∃ above slot, placed[p]? = some above ∧ above.1.isRouter = true ∧
      entry.2 = above.2 ++ [slot]
  rooted : ∀ entry ∈ placed, entry.1.parent = none → entry.2 = []
  counted : ∀ above ∈ placed, ∀ slot,
    above.2 ++ [slot] ∈ placed.map Prod.snd → above.1.nib.Counted slot

section Placement

variable {cm rm lm : ℕ} {net : TreeNetwork} {placed : List (TreeDevice × List Slot)}

theorem PlaceExists.injective {path other : List Slot} (hpath : PlaceExists cm rm lm path)
    (hother : PlaceExists cm rm lm other)
    (heq : offset rm (cm - rm) lm path = offset rm (cm - rm) lm other) :
    path = other := by
  -- a leaf of the root behind its block is in no valid place
  have hbehind : ∀ j place, 0 < lm → Valid rm (cm - rm) lm place →
      offset rm (cm - rm) lm [.leaf j] = offset rm (cm - rm) lm place →
      [.leaf j] = place := by
    intro j place hlm hvalid hsame
    obtain ⟨k, rfl⟩ := Nat.exists_eq_succ_of_ne_zero hlm.ne'
    by_cases hj : j < cm - rm
    · exact offset_injective (k := k + 1) ⟨hj, rfl⟩ hvalid hsame
    · have hlt := offset_lt_blockSize hvalid
      rw [← hsame, blockSize, offset, slotOffset] at hlt
      omega
  rcases hpath with hvalid | ⟨j, rfl, hlm, -⟩
  · rcases hother with hvalid' | ⟨j, rfl, hlm, -⟩
    · exact offset_injective hvalid hvalid' heq
    · exact (hbehind j path hlm hvalid heq.symm).symm
  · rcases hother with hvalid' | ⟨j', rfl, -, -⟩
    · exact hbehind j other hlm hvalid' heq
    · obtain ⟨k, rfl⟩ := Nat.exists_eq_succ_of_ne_zero hlm.ne'
      simp only [offset, slotOffset] at heq
      have hsame : j = j' := by omega
      rw [hsame]

theorem PlaceExists.valid_below {slots : List ℕ} {rest : List Slot}
    (hplace : PlaceExists cm rm lm (innerPath slots ++ rest))
    (hne : slots ≠ []) (hslots : ∀ i ∈ slots, i < rm)
    (hlength : slots.length ≤ lm) :
    Valid rm (cm - rm) (lm - slots.length) rest := by
  rcases hplace with hvalid | ⟨j, hleaf, -, -⟩
  · rwa [valid_innerPath_append hslots hlength] at hvalid
  · -- the path of a child of the coordinator starts with its slot
    cases slots with
    | nil => exact absurd rfl hne
    | cons i others => simp [innerPath] at hleaf

theorem Placement.below (hplacement : Placement cm rm lm net placed) {c d : ℕ}
    (hbelow : net.Below c d) {above entry : TreeDevice × List Slot}
    (habove : placed[c]? = some above) (hentry : placed[d]? = some entry) :
    ∃ rest, entry.2 = above.2 ++ rest := by
  induction hbelow generalizing entry with
  | self =>
    obtain rfl := some.inj (habove.symm.trans hentry)
    exact ⟨[], (List.append_nil _).symm⟩
  | child hdev hparent _ ih =>
    rw [← hplacement.devices, List.getElem?_map, hentry] at hdev
    obtain rfl := some.inj hdev
    obtain ⟨between, slot, hbetween, -, hpath⟩ :=
      hplacement.parent entry (List.mem_of_getElem? hentry) _ hparent
    obtain ⟨rest, hrest⟩ := ih hbetween
    exact ⟨rest ++ [slot], by rw [hpath, hrest, List.append_assoc]⟩

theorem Placement.device (hplacement : Placement cm rm lm net placed) {i : ℕ}
    {entry : TreeDevice × List Slot} (hentry : placed[i]? = some entry) :
    net[i]? = some entry.1 := by
  rw [← hplacement.devices, List.getElem?_map, hentry]
  rfl

variable {dev : TreeDevice} {path : List Slot} {p : ℕ}

theorem Placement.entry (hplacement : Placement cm rm lm net placed) {i : ℕ}
    (hdev : net[i]? = some dev) : ∃ path, placed[i]? = some (dev, path) := by
  rw [← hplacement.devices, List.getElem?_map] at hdev
  obtain ⟨⟨dev', path⟩, hentry, rfl⟩ := map_eq_some_iff.mp hdev
  exact ⟨path, hentry⟩

theorem Placement.addressesSound
    (hplacement : Placement cm rm lm net placed) : net.AddressesSound := by
  constructor
  · have haddresses : net.map (fun dev => dev.nib.macShortAddress) =
        (placed.map Prod.snd).map (offset rm (cm - rm) lm) := by
      rw [← hplacement.devices, List.map_map, List.map_map]
      apply List.map_congr_left
      intro entry hentry
      exact (hplacement.located entry hentry).address
    rw [haddresses]
    apply List.Nodup.map_on ?_ hplacement.unique
    intro path hpath other hother heq
    obtain ⟨entry, hentry, rfl⟩ := List.mem_map.mp hpath
    obtain ⟨entry', hentry', rfl⟩ := List.mem_map.mp hother
    exact (hplacement.located entry hentry).place.injective
      (hplacement.located entry' hentry').place heq
  · intro c child p parent hchild hrouter hparent hp d dev hbelow hdev
    obtain ⟨cpath, hc⟩ := hplacement.entry hchild
    obtain ⟨dpath, hd⟩ := hplacement.entry hdev
    obtain ⟨rest, hrest⟩ := hplacement.below hbelow hc hd
    obtain ⟨above, slot, habove, hpr, hpath⟩ :=
      hplacement.parent _ (List.mem_of_getElem? hc) p hparent
    have hcl := hplacement.located _ (List.mem_of_getElem? hc)
    have hdl := hplacement.located _ (List.mem_of_getElem? hd)
    have hpl := hplacement.located _ (List.mem_of_getElem? habove)
    obtain ⟨ppath, hpentry⟩ := hplacement.entry hp
    rw [hpentry] at habove
    obtain rfl := some.inj habove
    dsimp only at hrest hpath hpr hcl hdl hpl
    have hcr := hcl.router hrouter
    have hpr' := hpl.router hpr
    obtain ⟨slots, hslots, hlt, hlength⟩ := hcr.inner
    obtain ⟨pslots, hpslots, -, hplength⟩ := hpr'.inner
    have hlengths : slots.length = pslots.length + 1 := by
      have := congrArg List.length hpath
      rwa [hslots, hpslots, List.length_append, length_innerPath,
        length_innerPath, List.length_singleton] at this
    have hdepth := hcr.depth
    have hcskip := hpr'.cskip (by omega)
    have hle : slots.length ≤ lm := by omega
    have hne : slots ≠ [] := by
      rintro rfl
      rw [List.length_nil] at hlengths
      omega
    have hrestValid : Valid rm (cm - rm) (lm - slots.length) rest := by
      have hplace := hdl.place
      rw [hrest, hslots] at hplace
      exact hplace.valid_below hne hlt hle
    have hinside := offset_lt_blockSize hrestValid
    rw [hdl.address, hcl.address, hrest, hslots, offset_innerPath_append hle, hcskip]
    have hlevel : lm - parent.nib.depth - 1 = lm - slots.length := by omega
    rw [hlevel]
    omega

theorem RouterAt.keepsPlace {nib nib' : TreeNib}
    (hrouter : RouterAt cm rm lm nib path) (hkeeps : nib.KeepsPlace nib') :
    RouterAt cm rm lm nib' path := by
  refine ⟨?_, ?_, ?_, ?_, ?_, ?_⟩
  · rw [hkeeps.maxChildren, hrouter.maxChildren]
  · rw [hkeeps.maxRouters, hrouter.maxRouters]
  · rw [hkeeps.maxDepth, hrouter.maxDepth]
  · rw [hkeeps.depth]
    exact hrouter.inner
  · rw [hkeeps.depth]
    exact hrouter.depth
  · rw [hkeeps.depth, hkeeps.cskip]
    exact hrouter.cskip

theorem map_snd_set (hp : placed[p]? = some (dev, path)) (dev' : TreeDevice) :
    (placed.set p (dev', path)).map Prod.snd = placed.map Prod.snd := by
  have hpath : (placed.map Prod.snd)[p]? = some path := by
    rw [List.getElem?_map, hp]
    rfl
  obtain ⟨hlt, hget⟩ := List.getElem?_eq_some_iff.mp hpath
  rw [List.map_set]
  exact hget ▸ List.set_getElem_self hlt

theorem Placement.update (hplacement : Placement cm rm lm net placed)
    {nib' : TreeNib} (hp : placed[p]? = some (dev, path))
    (hkeeps : dev.nib.KeepsPlace nib') :
    Placement cm rm lm (net.set p { dev with nib := nib' })
      (placed.set p ({ dev with nib := nib' }, path)) := by
  have hpaths := map_snd_set hp { dev with nib := nib' }
  have hmem : (dev, path) ∈ placed := List.mem_of_getElem? hp
  have hentries : ∀ entry ∈ placed.set p ({ dev with nib := nib' }, path),
      ∃ old ∈ placed, entry.2 = old.2 ∧ entry.1.parent = old.1.parent ∧
        entry.1.isRouter = old.1.isRouter ∧
        old.1.nib.KeepsPlace entry.1.nib := by
    intro entry hentry
    rcases List.mem_or_eq_of_mem_set hentry with hold | rfl
    · exact ⟨entry, hold, rfl, rfl, rfl, .refl _⟩
    · exact ⟨(dev, path), hmem, rfl, rfl, rfl, hkeeps⟩
  constructor
  · rw [List.map_set, hplacement.devices]
  · rw [hpaths]
    exact hplacement.unique
  · intro entry hentry
    obtain ⟨old, hold, hpath, -, hrouter, hkeeps'⟩ := hentries entry hentry
    have hlocated := hplacement.located old hold
    rw [hpath]
    refine ⟨?_, hlocated.place, ?_⟩
    · rw [hkeeps'.macShortAddress, hlocated.address]
    · intro hisRouter
      exact (hlocated.router (hrouter ▸ hisRouter)).keepsPlace hkeeps'
  · intro entry hentry q hparent
    obtain ⟨old, hold, hpath, hsame, -, -⟩ := hentries entry hentry
    obtain ⟨above, slot, habove, hisRouter, hslot⟩ :=
      hplacement.parent old hold q (hsame ▸ hparent)
    by_cases hq : p = q
    · subst hq
      rw [hp] at habove
      obtain rfl := some.inj habove
      refine ⟨({ dev with nib := nib' }, path), slot, ?_, hisRouter, ?_⟩
      · rw [List.getElem?_set_self (List.getElem?_eq_some_iff.mp hp).1]
      · rw [hpath, hslot]
    · refine ⟨above, slot, ?_, hisRouter, ?_⟩
      · rw [List.getElem?_set_ne hq, habove]
      · rw [hpath, hslot]
  · intro entry hentry hparent
    obtain ⟨old, hold, hpath, hsame, -, -⟩ := hentries entry hentry
    rw [hpath]
    exact hplacement.rooted old hold (hsame ▸ hparent)
  · intro entry hentry slot hslot
    obtain ⟨old, hold, hpath, -, -, hkeeps'⟩ := hentries entry hentry
    rw [hpaths, hpath] at hslot
    exact hkeeps'.counted (hplacement.counted old hold slot hslot)

theorem Placement.append (hplacement : Placement cm rm lm net placed)
    {above : TreeDevice × List Slot} {slot : Slot} {child : TreeDevice}
    (hp : placed[p]? = some above) (hrouter : above.1.isRouter = true)
    (hparent : child.parent = some p)
    (hlocated : Located cm rm lm child (above.2 ++ [slot]))
    (hnew : above.2 ++ [slot] ∉ placed.map Prod.snd)
    (hcounted : above.1.nib.Counted slot) :
    Placement cm rm lm (net ++ [child]) (placed ++ [(child, above.2 ++ [slot])]) := by
  -- every place but that of the coordinator is below another one
  have hbelow : ∀ path slot', path ++ [slot'] ∈ placed.map Prod.snd →
      path ∈ placed.map Prod.snd := by
    intro path slot' hmem
    obtain ⟨entry, hentry, heq⟩ := List.mem_map.mp hmem
    cases hpar : entry.1.parent with
    | none =>
      rw [hplacement.rooted entry hentry hpar] at heq
      simp at heq
    | some q =>
      obtain ⟨between, slot'', hbetween, -, hslot⟩ := hplacement.parent entry hentry q hpar
      rw [heq, List.append_singleton_inj] at hslot
      rw [hslot.1]
      exact List.mem_map_of_mem (List.mem_of_getElem? hbetween)
  have hpaths : (placed ++ [(child, above.2 ++ [slot])]).map Prod.snd =
      placed.map Prod.snd ++ [above.2 ++ [slot]] := by
    rw [List.map_append]
    rfl
  constructor
  · rw [List.map_append, hplacement.devices]
    rfl
  · rw [hpaths]
    apply List.Nodup.append hplacement.unique (List.nodup_singleton _)
    rw [List.disjoint_singleton]
    exact hnew
  · intro entry hentry
    rcases List.mem_append.mp hentry with hold | hchild
    · exact hplacement.located entry hold
    · obtain rfl := List.mem_singleton.mp hchild
      exact hlocated
  · intro entry hentry q hq
    have hkeep : ∀ other, placed[q]? = some other →
        (placed ++ [(child, above.2 ++ [slot])])[q]? = some other := by
      intro other hother
      rw [List.getElem?_append_left (List.getElem?_eq_some_iff.mp hother).1, hother]
    rcases List.mem_append.mp hentry with hold | hchild
    · obtain ⟨between, slot', hbetween, hisRouter, hpath⟩ :=
        hplacement.parent entry hold q hq
      exact ⟨between, slot', hkeep between hbetween, hisRouter, hpath⟩
    · obtain rfl := List.mem_singleton.mp hchild
      obtain rfl := some.inj (hparent.symm.trans hq)
      exact ⟨above, slot, hkeep above hp, hrouter, rfl⟩
  · intro entry hentry hnone
    rcases List.mem_append.mp hentry with hold | hchild
    · exact hplacement.rooted entry hold hnone
    · obtain rfl := List.mem_singleton.mp hchild
      rw [hparent] at hnone
      contradiction
  · intro entry hentry slot' hslot'
    rw [hpaths, List.mem_append, List.mem_singleton] at hslot'
    rcases List.mem_append.mp hentry with hold | hchild
    · rcases hslot' with hslot' | hslot'
      · exact hplacement.counted entry hold slot' hslot'
      · -- the new place is below this device, which is the parent
        rw [List.append_singleton_inj] at hslot'
        obtain ⟨hsame, rfl⟩ := hslot'
        have heq : entry = above := by
          apply List.inj_on_of_nodup_map hplacement.unique hold
            (List.mem_of_getElem? hp) hsame
        rw [heq]
        exact hcounted
    · obtain rfl := List.mem_singleton.mp hchild
      dsimp only at hslot'
      rcases hslot' with hslot' | hslot'
      · exact absurd (hbelow _ _ hslot') hnew
      · have hlength := congrArg List.length hslot'
        simp at hlength

/-! ## Growing the network -/

theorem childAddress_eq {nib : TreeNib} {isRouter : Bool}
    (hrouter : RouterAt cm rm lm nib path)
    (haddress : nib.macShortAddress = offset rm (cm - rm) lm path)
    (hdepth : nib.depth < lm)
    (hplace : PlaceExists cm rm lm (path ++ [nib.nextSlot isRouter]))
    (hfit : blockSize rm (cm - rm) lm ≤ 0xFFF8) :
    nib.childAddress isRouter =
      offset rm (cm - rm) lm (path ++ [nib.nextSlot isRouter]) := by
  have hbound : offset rm (cm - rm) lm (path ++ [nib.nextSlot isRouter]) <
      2 ^ 16 := by
    rcases hplace with hvalid | ⟨-, -, -, hlt⟩
    · exact (offset_lt_blockSize hvalid).trans_le (hfit.trans (by decide))
    · exact hlt
  obtain ⟨slots, rfl, -, hlength⟩ := hrouter.inner
  have hlevel : lm - slots.length = lm - nib.depth - 1 + 1 := by omega
  rw [offset_innerPath_append (by omega), hlevel, ← haddress] at hbound ⊢
  cases isRouter with
  | true =>
    simp only [nextSlot, if_true, offset, slotOffset, Nat.add_zero] at hbound ⊢
    rw [childAddress, if_pos rfl, routerAddress, hrouter.cskip hdepth, Nat.mod_eq_of_lt]
    · omega
    · omega
  | false =>
    simp only [nextSlot, Bool.false_eq_true, if_false, offset,
      slotOffset, Nat.add_zero] at hbound ⊢
    rw [childAddress, if_neg Bool.false_ne_true,
      edAddress, edAddressSum, hrouter.cskip hdepth,
      hrouter.maxRouters, Nat.mod_eq_of_lt]
    · omega
    · omega

/-- The address of an end device is one of those for end devices.  The
coordinator may go beyond them up to the greatest number of 16 bits. -/
def JoinCall.Safe (net : TreeNetwork) (call : JoinCall) : Prop :=
  ∀ dev ∈ net[call.parent]?, dev.isRouter = true → call.capability.isRouter = false →
      call.capability.allocateAddress = true → call.registered = true →
        dev.nib.edChildNum + dev.nib.routerChildNum < dev.nib.maxChildren →
          dev.nib.depth < dev.nib.maxDepth →
            dev.nib.edChildNum + dev.nib.maxRouters < dev.nib.maxChildren ∨
              dev.nib.depth = 0 ∧ dev.nib.edAddressSum < 2 ^ 16

instance JoinCall.decidableSafe (net : TreeNetwork) (call : JoinCall) :
    Decidable (call.Safe net) :=
  inferInstanceAs (Decidable (∀ _ ∈ _, _))

theorem placeExists_child {isRouter : Bool} (hrouter : RouterAt cm rm lm dev.nib path)
    (haddress : dev.nib.macShortAddress = offset rm (cm - rm) lm path)
    (hplace : dev.nib.HasPlace isRouter)
    (hsafe : isRouter = false →
      dev.nib.edChildNum + dev.nib.maxRouters < dev.nib.maxChildren ∨
        dev.nib.depth = 0 ∧ dev.nib.edAddressSum < 2 ^ 16) :
    PlaceExists cm rm lm (path ++ [dev.nib.nextSlot isRouter]) := by
  have hdepth := hplace.depth
  have hrouters := hplace.routers
  rw [hrouter.maxDepth] at hdepth
  rw [hrouter.maxRouters] at hrouters
  obtain ⟨slots, rfl, hslots, hlength⟩ := hrouter.inner
  have hlevel : lm - slots.length = lm - dev.nib.depth - 1 + 1 := by omega
  cases isRouter with
  | true =>
    left
    rw [valid_innerPath_append hslots (by omega), hlevel]
    exact ⟨hrouters rfl, valid_nil⟩
  | false =>
    rcases hsafe rfl with hfree | ⟨hroot, hlt⟩
    · left
      rw [hrouter.maxRouters, hrouter.maxChildren] at hfree
      rw [valid_innerPath_append hslots (by omega), hlevel]
      exact ⟨by omega, rfl⟩
    · right
      rw [hroot] at hlength hlevel
      obtain rfl := List.length_eq_zero_iff.mp hlength
      refine ⟨dev.nib.edChildNum, rfl, by omega, ?_⟩
      have hcskip := hrouter.cskip hdepth
      rw [edAddressSum, haddress, hcskip, hrouter.maxRouters] at hlt
      obtain ⟨k, rfl⟩ := Nat.exists_eq_succ_of_ne_zero (show lm ≠ 0 by omega)
      have hk : k + 1 - dev.nib.depth - 1 = k := by omega
      rw [hk] at hlt
      simp only [innerPath, List.map_nil, List.nil_append, nextSlot,
        Bool.false_eq_true, if_false, offset, slotOffset] at hlt ⊢
      omega

section

variable (hrm : 1 ≤ rm) (hcm : rm ≤ cm) (hfit : blockSize rm (cm - rm) lm ≤ 0xFFF8)

include hrm hcm hfit

theorem Placement.apply (hplacement : Placement cm rm lm net placed) {next : TreeNetwork}
    {call : JoinCall} (hsafe : call.Safe net)
    (happly : call.apply net = some next) :
    ∃ placed', Placement cm rm lm next placed' := by
  obtain ⟨dev, nib', hdev, hrouter, hkeeps, hcases⟩ := JoinCall.apply_eq_some happly
  obtain ⟨path, hp⟩ := hplacement.entry hdev
  have hupdated := hplacement.update hp hkeeps
  rcases hcases with rfl | ⟨hregistered, hallocate, hplace, hcounted, rfl⟩
  · exact ⟨_, hupdated⟩
  · have hlocated := hplacement.located _ (List.mem_of_getElem? hp)
    have hat := hlocated.router hrouter
    have haddress := hlocated.address
    dsimp only at hat haddress
    have hdepth := hplace.depth
    rw [hat.maxDepth] at hdepth
    have hchildPlace := placeExists_child hat haddress hplace
      (fun hed => hsafe dev hdev hrouter hed hallocate hregistered hplace.room
        hplace.depth)
    have hlength := (List.getElem?_eq_some_iff.mp hp).1
    refine ⟨_, hupdated.append (List.getElem?_set_self hlength) hrouter rfl ?_ ?_ hcounted⟩
    · refine ⟨?_, hchildPlace, ?_⟩
      · exact childAddress_eq hat haddress hdepth hchildPlace hfit
      · intro hisRouter
        dsimp only at hisRouter
        obtain ⟨slots, hslots, hlt, hslength⟩ := hat.inner
        have hrouters := hplace.routers hisRouter
        rw [hat.maxRouters] at hrouters
        refine ⟨hat.maxChildren, hat.maxRouters, hat.maxDepth, ?_, hdepth, ?_⟩
        · refine ⟨slots ++ [dev.nib.routerChildNum], ?_, ?_, ?_⟩
          · dsimp only
            rw [hslots, nextSlot, if_pos hisRouter, innerPath, innerPath, List.map_append]
            rfl
          · intro i hi
            rcases List.mem_append.mp hi with hold | hnew
            · exact hlt i hold
            · rw [List.mem_singleton.mp hnew]
              exact hrouters
          · rw [List.length_append, hslength]
            rfl
        · intro hbelow
          change zbNwkDaaCalcCskip dev.nib (dev.nib.depth + 1) = _
          have hbelow' : dev.nib.depth + 1 < lm := hbelow
          have heq := @zbNwkDaaCalcCskip_eq dev.nib (dev.nib.depth + 1)
          rw [hat.maxRouters, hat.maxChildren, hat.maxDepth] at heq
          apply heq hrm hcm hbelow'
          refine Nat.lt_of_le_of_lt (blockSize_mono hrm ?_)
            (Nat.lt_of_le_of_lt hfit (by decide))
          omega
    · -- the slot of the child was not counted before
      intro hmem
      rw [map_snd_set hp] at hmem
      exact dev.nib.not_counted_nextSlot call.capability.isRouter
        (hplacement.counted _ (List.mem_of_getElem? hp) _ hmem)

theorem placement_formed : Placement cm rm lm (.formed cm rm lm)
      [(⟨coordinatorNib cm rm lm, true, none⟩, [])] := by
  refine ⟨rfl, List.nodup_singleton _, ?_, ?_, ?_, ?_⟩
  · intro entry hentry
    obtain rfl := List.mem_singleton.mp hentry
    refine ⟨?_, Or.inl valid_nil, ?_⟩
    · exact offset_nil.symm
    · intro _
      refine ⟨rfl, rfl, rfl, ⟨[], rfl, fun i hi => absurd hi List.not_mem_nil,
        rfl⟩, Nat.zero_le _, ?_⟩
      intro hlm
      apply @zbNwkDaaCalcCskip_eq { coordinatorNib cm rm lm with cskip := 0 } 0 hrm hcm hlm
      refine Nat.lt_of_le_of_lt (blockSize_mono hrm ?_)
        (Nat.lt_of_le_of_lt hfit (by decide))
      change lm - 0 - 1 ≤ lm
      omega
  · intro entry hentry p hparent
    obtain rfl := List.mem_singleton.mp hentry
    contradiction
  · intro entry hentry _
    obtain rfl := List.mem_singleton.mp hentry
    rfl
  · intro entry hentry slot hslot
    obtain rfl := List.mem_singleton.mp hentry
    simp at hslot

end

end Placement

/-- In every network which grows by safe calls, all addresses are different
and those of a subtree are in the block of its router, if there is room for
the whole tree. -/
theorem addressesSound_of_run (maxChildren maxRouters maxDepth : ℕ) (calls : List JoinCall)
    (hrouters : 1 ≤ maxRouters) (hchildren : maxRouters ≤ maxChildren)
    (hfit : blockSize maxRouters (maxChildren - maxRouters) maxDepth ≤ 0xFFF8)
    (hsafe : AlongRun JoinCall.apply (fun net call => call.Safe net)
      (.formed maxChildren maxRouters maxDepth) calls) :
    EveryState JoinCall.apply TreeNetwork.AddressesSound
      (.formed maxChildren maxRouters maxDepth) calls := by
  refine @everyState_of_invariant _ _ _ _
    (fun net => ∃ placed, Placement maxChildren maxRouters maxDepth net placed)
    _ ?_ ?_ _ _ ?_ hsafe
  · rintro net call next ⟨placed, hplacement⟩ hsafe happly
    exact hplacement.apply hrouters hchildren hfit hsafe happly
  · rintro net ⟨placed, hplacement⟩
    exact hplacement.addressesSound
  · exact ⟨_, placement_formed hrouters hchildren hfit⟩

def joinRouter (parent : ℕ) : JoinCall := ⟨parent, ⟨true, true⟩, true⟩

def joinEd (parent : ℕ) : JoinCall := ⟨parent, ⟨false, true⟩, true⟩

/-- The coordinator takes two routers and three end devices, one more than
there are addresses for, and a router takes two end devices. -/
theorem addressesSound_of_run_joined :
    EveryState JoinCall.apply TreeNetwork.AddressesSound (.formed 5 3 3)
      [joinRouter 0, joinRouter 0, joinEd 0, joinEd 0, joinEd 0, joinEd 1,
        joinEd 1, joinRouter 2] :=
  addressesSound_of_run 5 3 3 _ (by decide) (by decide) (by decide)
    (by decide +kernel)

def secondEd : List JoinCall :=
  [joinRouter 0, joinEd 0, joinEd 1, joinEd 1]

/-- The coordinator and its router give address 4 to different devices. -/
theorem not_addressesSound_of_secondEd : blockSize 1 (2 - 1) 2 ≤ 0xFFF8 ∧
      ¬ EveryState JoinCall.apply TreeNetwork.AddressesSound (.formed 2 1 2)
        secondEd := by
  refine ⟨by decide, ?_⟩
  intro hevery
  have hresult : (run JoinCall.apply (.formed 2 1 2) secondEd).map
          (fun net => net.map fun dev => dev.nib.macShortAddress) =
        some [0, 1, 4, 3, 4] := by
    decide +kernel
  obtain ⟨net, hrun, hobserved⟩ := map_eq_some_iff.mp hresult
  have hnodup := (hevery.last hrun).nodup
  rw [hobserved] at hnodup
  exact absurd hnodup (by decide)

end Zboss
