import Zboss.PendingDiscoveries

/-!
# Packets without a destination

Which packets `nwk_calc_destination` refuses, and which ones it sends on or lets
wait, said on the state before the call.
-/

namespace Zboss

open Option

namespace NwkMain

/-! ## Packets without a destination -/

def NoRoute (nwk : NwkMain) (param : ℕ) : Prop :=
  let packet := nwk.packets param
  match nwk.mesh.routeTo packet.dstAddr with
  | none => nwk.freePending = none
  | some r =>
      match (nwk.mesh.routingTable r).status with
      | .active | .validationUnderway => False
      | .discoveryUnderway => nwk.freePending = none
      | .discoveryFailed | .discoveryInactive =>
          nwk.useTreeRouting = true → ((nwk.destNeighbor packet).bind fun (zg, _) =>
              (zbNwkTreeRoutingRoute ⟨zg, nwk.treeNib, nwk.parent⟩
                packet.dstAddr).map Prod.snd) = some none

instance (nwk : NwkMain) (param : ℕ) : Decidable (nwk.NoRoute param) := by
  unfold NoRoute
  dsimp only
  split
  · infer_instance
  · split <;> infer_instance

@[mk_iff] structure NoDestination (nwk : NwkMain) (param : ℕ) : Prop where
  router : nwk.deviceType ≠ .endDevice
  unicast : nwkIsAddressBroadcast (nwk.packets param).dstAddr = false
  noNeighbor : (nwk.destNeighbor (nwk.packets param)).map Prod.snd = some none
  noRoute : (nwk.packets param).discoverRoute = true → nwk.NoRoute param

instance (nwk : NwkMain) (param : ℕ) : Decidable (nwk.NoDestination param) :=
  decidable_of_iff _ (nwk.noDestination_iff param).symm

def Undeliverable (nwk : NwkMain) (param : ℕ) : Prop :=
  nwk.NoDestination param ∨ nwk.NoRoom param

theorem noRoom_iff {nwk : NwkMain} {param : ℕ} : nwk.NoRoom param ↔
      nwkIsAddressBroadcast (nwk.packets param).dstAddr = true ∧
        (nwk.findBtr (nwk.packets param).srcAddr (nwk.packets param).seqNum =
            none ∧ nwk.btt.freeEnt = none ∨
          nwk.deviceType ≠ .endDevice ∧
            nwkBrrTableSize ≤ nwk.brrt.cnt.toNat) := by
  constructor
  · rintro (⟨hbroadcast, hnew, hfull⟩ | ⟨hbroadcast, hrouter, hfull⟩)
    · exact ⟨hbroadcast, .inl ⟨hnew, hfull⟩⟩
    · exact ⟨hbroadcast, .inr ⟨hrouter, hfull⟩⟩
  · rintro ⟨hbroadcast, ⟨hnew, hfull⟩ | ⟨hrouter, hfull⟩⟩
    · exact .btt hbroadcast hnew hfull
    · exact .brrt hbroadcast hrouter hfull

instance (nwk : NwkMain) (param : ℕ) : Decidable (nwk.Undeliverable param) :=
  have : Decidable (nwk.NoRoom param) := decidable_of_iff _ noRoom_iff.symm
  inferInstanceAs (Decidable (_ ∨ _))

inductive Destined (nwk : NwkMain) (param : ℕ) :
    NwkMain × CalcDestination × List NwkOutput → Prop
  | ok {routed : NwkMain} {macDst : ℕ} {indirect : Bool}
      {outputs : List NwkOutput} (hsame : SamePending nwk routed)
      (hdest : ¬ NoDestination nwk param) :
      Destined nwk param (routed, .ok macDst indirect, outputs)
  | waits {routed : NwkMain} {i : ℕ} {outputs : List NwkOutput}
      (hfree : nwk.freePending = some i)
      (htakes : TakesPending nwk param i routed)
      (hdest : ¬ NoDestination nwk param) :
      Destined nwk param (routed, .busy, outputs)
  | failed {routed : NwkMain} {macDst : ℕ} {outputs : List NwkOutput}
      (hsame : SamePending nwk routed) (hno : NoDestination nwk param) :
      Destined nwk param (routed, .error macDst, outputs)

variable {nwk next : NwkMain} {param : ℕ}

theorem waitForRoute_destined {discover : Bool} (hsame : SamePending nwk next)
    (hno : NoDestination nwk param ↔ nwk.freePending = none) :
    Destined nwk param (next.waitForRoute param discover) := by
  have hsameFree := hsame.freePending
  unfold waitForRoute addBufToPending
  dsimp only
  cases hfree : nwkArrayGetEnt nwkPendingTableSize
      (fun i => (next.mesh.pendingTable i).used) with
  | none => exact .failed hsame (hno.mpr (hsameFree.symm.trans hfree))
  | some i =>
    have hi : nwk.freePending = some i := hsameFree.symm.trans hfree
    refine .waits hi ⟨?_, ?_, hsame.packets⟩ ?_
    · dsimp only
      rw [hsame.pendingTable, hsame.packets]
    · dsimp only
      rw [hsame.waitingBuf]
    · rw [hno, hi]
      exact some_ne_none i

variable {result : NwkMain × CalcDestination × List NwkOutput} {zg : Globals}

theorem calcTreeDestination_destined (hno : NoDestination nwk param ↔
      (zbNwkTreeRoutingRoute ⟨zg, nwk.treeNib, nwk.parent⟩
        (nwk.packets param).dstAddr).map Prod.snd = some none)
    (hcalc : (nwk.setZg zg).calcTreeDestination (nwk.packets param).dstAddr =
      some result) :
    Destined nwk param result := by
  obtain ⟨⟨zg', row⟩, htree, hrest⟩ := bind_eq_some_iff.mp hcalc
  have htree : zbNwkTreeRoutingRoute ⟨zg, nwk.treeNib, nwk.parent⟩
      (nwk.packets param).dstAddr = some (zg', row) := htree
  rw [htree, map_some, some.injEq] at hno
  cases row with
  | some n =>
    obtain rfl := some.inj hrest
    exact .ok ⟨rfl, rfl, rfl⟩ (hno.not.mpr (some_ne_none n))
  | none =>
    obtain rfl := some.inj hrest
    exact .failed ⟨rfl, rfl, rfl⟩ (hno.mpr rfl)

theorem calcTreeOnly_destined (hno : NoDestination nwk param ↔ (nwk.useTreeRouting = true →
      (zbNwkTreeRoutingRoute ⟨zg, nwk.treeNib, nwk.parent⟩
        (nwk.packets param).dstAddr).map Prod.snd = some none))
    (hcalc : (if (nwk.setZg zg).useTreeRouting then
        (nwk.setZg zg).calcTreeDestination (nwk.packets param).dstAddr
      else some (nwk.setZg zg, .error (nwk.packets param).dstAddr, [])) = some result) :
    Destined nwk param result := by
  split at hcalc
  · rename_i htree
    exact calcTreeDestination_destined (hno.trans (forall_prop_of_true htree)) hcalc
  · rename_i hoff
    obtain rfl := some.inj hcalc
    exact .failed ⟨rfl, rfl, rfl⟩ (hno.mpr fun hon => absurd hon hoff)

theorem calcRoute_destined
    (hneighbor : nwk.destNeighbor (nwk.packets param) = some (zg, none))
    (hno : NoDestination nwk param ↔ nwk.NoRoute param)
    (hcalc : (nwk.setZg zg).calcRoute param = some result) :
    Destined nwk param result := by
  have hzg := samePending_setZg nwk zg
  unfold NoRoute at hno
  dsimp only at hno
  rw [hneighbor, bind_some] at hno
  unfold calcRoute at hcalc
  dsimp only at hcalc
  split at hcalc
  · rename_i hroute
    have hroute : nwk.mesh.routeTo (nwk.packets param).dstAddr = none := hroute
    rw [hroute] at hno
    obtain rfl := some.inj hcalc
    exact waitForRoute_destined hzg hno
  · rename_i r hroute
    have hroute : nwk.mesh.routeTo (nwk.packets param).dstAddr = some r := hroute
    rw [hroute] at hno
    dsimp only at hno
    split at hcalc
    · rename_i hstatus
      have hstatus : (nwk.mesh.routingTable r).status = .active := hstatus
      rw [hstatus] at hno
      obtain rfl := some.inj hcalc
      exact .ok ⟨rfl, rfl, rfl⟩ (hno.not.mpr not_false)
    · rename_i hstatus
      have hstatus : (nwk.mesh.routingTable r).status = .validationUnderway := hstatus
      rw [hstatus] at hno
      obtain rfl := some.inj hcalc
      exact .ok ⟨rfl, rfl, rfl⟩ (hno.not.mpr not_false)
    · rename_i hstatus
      have hstatus : (nwk.mesh.routingTable r).status = .discoveryUnderway := hstatus
      rw [hstatus] at hno
      obtain rfl := some.inj hcalc
      exact waitForRoute_destined hzg hno
    · rename_i hstatus
      have hstatus : (nwk.mesh.routingTable r).status = .discoveryFailed := hstatus
      rw [hstatus] at hno
      exact calcTreeOnly_destined hno hcalc
    · rename_i hstatus
      have hstatus : (nwk.mesh.routingTable r).status = .discoveryInactive := hstatus
      rw [hstatus] at hno
      exact calcTreeOnly_destined hno hcalc

theorem nwkCalcDestination_destined (hcalc : nwk.nwkCalcDestination param = some result) :
    Destined nwk param result := by
  have hself : SamePending nwk nwk := ⟨rfl, rfl, rfl⟩
  unfold nwkCalcDestination at hcalc
  dsimp only at hcalc
  split at hcalc
  · rename_i hend
    have hdest : ¬ NoDestination nwk param := fun hno => hno.router hend
    split at hcalc
    · obtain rfl := some.inj hcalc
      exact .ok hself hdest
    · obtain rfl := some.inj hcalc
      exact .ok hself hdest
  · rename_i hrouter
    split at hcalc
    · rename_i hbroadcast
      obtain rfl := some.inj hcalc
      refine .ok hself fun hno => ?_
      rw [hno.unicast] at hbroadcast
      contradiction
    · rename_i hunicast
      obtain ⟨⟨zg, row⟩, hneighbor, hrest⟩ := bind_eq_some_iff.mp hcalc
      have hzg := samePending_setZg nwk zg
      cases row with
      | some n =>
        obtain rfl := some.inj hrest
        refine .ok hzg fun hno => ?_
        have hnone := hno.noNeighbor
        rw [hneighbor] at hnone
        exact some_ne_none n (some.inj hnone)
      | none =>
        have hno : NoDestination nwk param ↔
            ((nwk.packets param).discoverRoute = true → nwk.NoRoute param) := by
          refine ⟨NoDestination.noRoute, fun hroute => ?_⟩
          refine ⟨hrouter, Bool.eq_false_of_not_eq_true hunicast, ?_, hroute⟩
          rw [hneighbor]
          rfl
        dsimp only at hrest
        split at hrest
        · rename_i hdiscover
          exact calcRoute_destined hneighbor
            (hno.trans (forall_prop_of_true hdiscover)) hrest
        · rename_i hdiscover
          obtain rfl := some.inj hrest
          exact .failed hzg (hno.mpr fun h => absurd h hdiscover)

theorem exists_calcTree (hroute : nwk.useTreeRouting = true →
      (zbNwkTreeRoutingRoute ⟨zg, nwk.treeNib, nwk.parent⟩
        (nwk.packets param).dstAddr).map Prod.snd = some none) :
    ∃ result, (if (nwk.setZg zg).useTreeRouting then
        (nwk.setZg zg).calcTreeDestination (nwk.packets param).dstAddr
      else some (nwk.setZg zg, .error (nwk.packets param).dstAddr, [])) =
        some result := by
  split
  · rename_i htree
    obtain ⟨⟨zg', row⟩, hrouted, hrow⟩ := map_eq_some_iff.mp (hroute htree)
    obtain rfl : row = none := hrow
    have hrouted : zbNwkTreeRoutingRoute
        ⟨(nwk.setZg zg).mesh.zg, (nwk.setZg zg).treeNib, (nwk.setZg zg).parent⟩
          (nwk.packets param).dstAddr = some (zg', none) := hrouted
    rw [calcTreeDestination, hrouted]
    exact ⟨_, rfl⟩
  · exact ⟨_, rfl⟩

theorem NoDestination.calc (hno : NoDestination nwk param) :
    ∃ routed macDst outputs, nwk.nwkCalcDestination param =
      some (routed, .error macDst, outputs) := by
  obtain ⟨⟨zg, row⟩, hneighbor, hrow⟩ := map_eq_some_iff.mp hno.noNeighbor
  obtain rfl : row = none := hrow
  have hsome : ∃ result, nwk.nwkCalcDestination param = some result := by
    unfold nwkCalcDestination
    dsimp only
    rw [if_neg hno.router, if_neg (Bool.eq_false_iff.mp hno.unicast), hneighbor,
      bind_eq_bind, bind_some]
    dsimp only
    split
    · rename_i hdiscover
      have hroute := hno.noRoute hdiscover
      unfold NoRoute at hroute
      dsimp only at hroute
      rw [hneighbor, bind_some] at hroute
      unfold calcRoute
      dsimp only
      split
      · exact ⟨_, rfl⟩
      · rename_i r hrouted
        have hrouted : nwk.mesh.routeTo (nwk.packets param).dstAddr = some r := hrouted
        rw [hrouted] at hroute
        dsimp only at hroute
        split
        · exact ⟨_, rfl⟩
        · exact ⟨_, rfl⟩
        · exact ⟨_, rfl⟩
        · rename_i hstatus
          have hstatus : (nwk.mesh.routingTable r).status = .discoveryFailed := hstatus
          rw [hstatus] at hroute
          exact exists_calcTree hroute
        · rename_i hstatus
          have hstatus : (nwk.mesh.routingTable r).status = .discoveryInactive := hstatus
          rw [hstatus] at hroute
          exact exists_calcTree hroute
    · exact ⟨_, rfl⟩
  obtain ⟨result, hcalc⟩ := hsome
  cases nwkCalcDestination_destined hcalc with
  | ok _ hdest => exact absurd hno hdest
  | waits _ _ hdest => exact absurd hno hdest
  | failed => exact ⟨_, _, _, hcalc⟩

end NwkMain

end Zboss
