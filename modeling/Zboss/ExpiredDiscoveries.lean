import Mathlib.Data.List.Find
import Zboss.ActiveRoutes

/-!
# Routes which are freed when discoveries expire

The search for the route of an expired discovery compares each route with the
discovery in the row of the same number.  What it finds does not depend on the
discovery which has expired.
-/

namespace Zboss

open Function List

namespace MeshRouter

def due (router : MeshRouter) (i : ℕ) : Bool :=
  (router.routeDiscTable i).used && (router.routeDiscTable i).expirationTime == 0

def sameRowRoute (router : MeshRouter) : Option ℕ :=
  router.findRouting fun k =>
    (router.routingTable k).destAddr == (router.routeDiscTable k).destAddr &&
      (router.routingTable k).status != .active

structure UnconfirmedRoute (router : MeshRouter) (k destAddr : ℕ) : Prop where
  lt : k < nwkRoutingTableSize
  used : (router.routingTable k).used = true
  status : (router.routingTable k).status ≠ .active
  dest : (router.routingTable k).destAddr = destAddr

end MeshRouter

structure DiscoveryExpired (before after : MeshRouter) (i : ℕ) : Prop where
  lt : i < nwkRouteDiscoveryTableSize
  used : (before.routeDiscTable i).used = true
  freed : (after.routeDiscTable i).used = false

/-- Only routes of expired discoveries are freed, no others are touched, and
each expired discovery has a route freed if there is one which is not
active. -/
structure TargetedExpiry (before after : MeshRouter) : Prop where
  touched : ∀ k, after.routingTable k ≠ before.routingTable k →
    after.routingTable k = { before.routingTable k with used := false } ∧
      ∃ i, DiscoveryExpired before after i ∧
        before.UnconfirmedRoute k (before.routeDiscTable i).destAddr
  freed : ∀ i, DiscoveryExpired before after i →
    ∀ k, before.UnconfirmedRoute k (before.routeDiscTable i).destAddr →
      ∃ k', before.UnconfirmedRoute k' (before.routeDiscTable i).destAddr ∧
        (after.routingTable k').used = false
  once : ∀ k k', after.routingTable k ≠ before.routingTable k →
    after.routingTable k' ≠ before.routingTable k' → k = k'

/-- The route which the search finds is one to the destination of the first
discovery which expires, or it finds none and no discovery which expires has
one. -/
def SearchHits (router : MeshRouter) : Prop :=
  router.routeDiscTableCnt = 0 ∨
    match (List.range nwkRouteDiscoveryTableSize).find? router.due,
        router.sameRowRoute with
    | none, _ => True
    | some i, some k =>
        (router.routingTable k).destAddr = (router.routeDiscTable i).destAddr
    | some _, none =>
        ∀ i < nwkRouteDiscoveryTableSize, router.due i = true →
          ∀ k, ¬ router.UnconfirmedRoute k (router.routeDiscTable i).destAddr

/-- The discoveries of `rows` and the route `route` are free, and everything
else is as it was, apart from timers. -/
structure FreedRows (router : MeshRouter) (rows : List ℕ) (route : Option ℕ)
    (after : MeshRouter) : Prop where
  discoveries : ∀ i, (after.routeDiscTable i).used = true ↔
    (router.routeDiscTable i).used = true ∧ i ∉ rows
  routes : after.routingTable = (router.putRouting route).routingTable

section Loop

variable {router router' after : MeshRouter} {i j k : ℕ} {indices : List ℕ}

theorem setRouteDisc_self (ent : NwkRouteDiscovery) :
    (router.setRouteDisc i ent).routeDiscTable i = ent :=
  update_self _ _ _

theorem setRouteDisc_of_ne (ent : NwkRouteDiscovery) (hj : j ≠ i) :
    (router.setRouteDisc i ent).routeDiscTable j = router.routeDiscTable j :=
  update_of_ne hj _ _

theorem sameRowRoute_setRouteDisc {ent : NwkRouteDiscovery}
    (hdest : ent.destAddr = (router.routeDiscTable i).destAddr) :
    (router.setRouteDisc i ent).sameRowRoute = router.sameRowRoute := by
  have hrows : ∀ j, ((router.setRouteDisc i ent).routeDiscTable j).destAddr =
      (router.routeDiscTable j).destAddr := by
    intro j
    by_cases hj : j = i
    · rw [hj, setRouteDisc_self, hdest]
    · rw [setRouteDisc_of_ne ent hj]
  unfold MeshRouter.sameRowRoute MeshRouter.findRouting
  simp only [hrows]
  rfl

theorem due_setRouteDisc_of_ne (ent : NwkRouteDiscovery) (hj : j ≠ i) :
    (router.setRouteDisc i ent).due j = router.due j := by
  rw [MeshRouter.due, MeshRouter.due, setRouteDisc_of_ne ent hj]

theorem freedRows_nil (router : MeshRouter) :
    FreedRows router [] none router :=
  ⟨by simp, rfl⟩

theorem FreedRows.ticked {rows : List ℕ} {route : Option ℕ} {ent : NwkRouteDiscovery}
    (hfreed : FreedRows (router.setRouteDisc i ent) rows route after)
    (hused : ent.used = (router.routeDiscTable i).used) :
    FreedRows router rows route after := by
  constructor
  · intro j
    rw [hfreed.discoveries]
    by_cases hj : j = i
    · rw [hj, setRouteDisc_self, hused]
    · rw [setRouteDisc_of_ne ent hj]
  · rw [hfreed.routes]
    cases route with
    | none => rfl
    | some k => rfl

theorem FreedRows.putRouteDisc {rows : List ℕ} {route : Option ℕ}
    (hfreed : FreedRows (router.putRouteDisc (some i)) rows route after) :
    FreedRows router (i :: rows) route after := by
  constructor
  · intro j
    rw [hfreed.discoveries, mem_cons, not_or]
    change ((router.setRouteDisc i _).routeDiscTable j).used = true ∧ _ ↔ _
    by_cases hj : j = i
    · rw [hj, setRouteDisc_self]
      simp
    · rw [setRouteDisc_of_ne _ hj]
      simp [hj]
  · rw [hfreed.routes]
    cases route with
    | none => rfl
    | some k => rfl

theorem expiryLoop_cons (router : MeshRouter) (i : ℕ) (rest : List ℕ) :
    (router.due i = false ∧
        ((expiryLoop router (i :: rest)).1 = (expiryLoop router rest).1 ∨
          ∃ ent : NwkRouteDiscovery, ent.used = (router.routeDiscTable i).used ∧
            ent.destAddr = (router.routeDiscTable i).destAddr ∧
            (expiryLoop router (i :: rest)).1 =
              (expiryLoop (router.setRouteDisc i ent) rest).1)) ∨
      (router.due i = true ∧ router.sameRowRoute = none ∧
        (expiryLoop router (i :: rest)).1 =
          (expiryLoop (router.putRouteDisc (some i)) rest).1) ∨
      ∃ k addr, router.due i = true ∧ router.sameRowRoute = some k ∧
        (expiryLoop router (i :: rest)).1 =
          ({ router.putRouteDisc (some i) with
              statusIndAddr := addr } : MeshRouter).putRouting (some k) := by
  rw [expiryLoop]
  dsimp only
  split
  · rename_i hused
    split
    · rename_i htimer
      refine Or.inl ⟨?_, Or.inr ⟨_, ?_, ?_, rfl⟩⟩
      · simp [MeshRouter.due, htimer]
      · rfl
      · rfl
    · rename_i htimer
      rw [not_not] at htimer
      have hdue : router.due i = true := by simp [MeshRouter.due, hused, htimer]
      split
      · rename_i k hfind
        exact Or.inr (Or.inr ⟨k, _, hdue, hfind, rfl⟩)
      · rename_i hfind
        exact Or.inr (Or.inl ⟨hdue, hfind, rfl⟩)
  · rename_i hunused
    refine Or.inl ⟨?_, Or.inl rfl⟩
    simp [MeshRouter.due, hunused]

theorem due_rest (ent : NwkRouteDiscovery) {rest : List ℕ} (hnodup : (i :: rest).Nodup) :
    ∀ j ∈ rest, (router.setRouteDisc i ent).due j = router.due j := by
  intro j hj
  apply due_setRouteDisc_of_ne
  rintro rfl
  exact (nodup_cons.mp hnodup).1 hj

theorem expiryLoop_of_none (hnone : router.sameRowRoute = none) (hnodup : indices.Nodup) :
    FreedRows router (indices.filter router.due) none (expiryLoop router indices).1 := by
  induction indices generalizing router with
  | nil => exact freedRows_nil router
  | cons i rest ih =>
    have hrest := (nodup_cons.mp hnodup).2
    rcases expiryLoop_cons router i rest with
      ⟨hdue, heq | ⟨ent, hused, hdest, heq⟩⟩ | ⟨hdue, -, heq⟩ | ⟨k, addr, -, hsome, -⟩
    · rw [heq, filter_cons_of_neg (by simp [hdue])]
      exact ih hnone hrest
    · rw [heq, filter_cons_of_neg (by simp [hdue]), ← filter_congr (due_rest ent hnodup)]
      exact (ih ((sameRowRoute_setRouteDisc hdest).trans hnone) hrest).ticked hused
    · let ent := { router.routeDiscTable i with used := false }
      have hsearch : (router.putRouteDisc (some i)).sameRowRoute = none :=
        (@sameRowRoute_setRouteDisc router i ent rfl).trans hnone
      rw [heq, filter_cons_of_pos hdue, ← filter_congr (due_rest ent hnodup)]
      exact (ih hsearch hrest).putRouteDisc
    · rw [hnone] at hsome
      contradiction

theorem expiryLoop_of_some
    (hsome : router.sameRowRoute = some k) (hnodup : indices.Nodup) :
    FreedRows router (indices.find? router.due).toList
      ((indices.find? router.due).map fun _ => k)
      (expiryLoop router indices).1 := by
  induction indices generalizing router with
  | nil => exact freedRows_nil router
  | cons i rest ih =>
    have hrest := (nodup_cons.mp hnodup).2
    rcases expiryLoop_cons router i rest with
      ⟨hdue, heq | ⟨ent, hused, hdest, heq⟩⟩ | ⟨-, hnone, -⟩ |
        ⟨k', addr, hdue, hfound, heq⟩
    · rw [heq, List.find?_cons_of_neg (by simp [hdue])]
      exact ih hsome hrest
    · rw [heq, List.find?_cons_of_neg (by simp [hdue]),
        ← List.find?_congr (due_rest ent hnodup)]
      exact (ih ((sameRowRoute_setRouteDisc hdest).trans hsome) hrest).ticked hused
    · rw [hsome] at hnone
      contradiction
    · obtain rfl := Option.some.inj (hsome.symm.trans hfound)
      rw [heq, List.find?_cons_of_pos hdue]
      constructor
      · exact (freedRows_nil (router.putRouteDisc (some i))).putRouteDisc.discoveries
      · rfl

end Loop

section Call

variable {router after : MeshRouter} {rows : List ℕ} {route : Option ℕ}

theorem FreedRows.expired_iff (hfreed : FreedRows router rows route after)
    (hrows : ∀ i ∈ rows, i < nwkRouteDiscoveryTableSize ∧ router.due i = true) {i : ℕ} :
    DiscoveryExpired router after i ↔ i ∈ rows := by
  have hused : ∀ i ∈ rows, (router.routeDiscTable i).used = true := by
    intro i hi
    have hdue := (hrows i hi).2
    rw [MeshRouter.due, Bool.and_eq_true] at hdue
    exact hdue.1
  constructor
  · intro hexpired
    by_contra hi
    have hkept := (hfreed.discoveries i).mpr ⟨hexpired.used, hi⟩
    rw [hexpired.freed] at hkept
    contradiction
  · intro hi
    refine ⟨(hrows i hi).1, hused i hi, ?_⟩
    rw [← Bool.not_eq_true, hfreed.discoveries]
    exact fun hkept => hkept.2 hi

theorem FreedRows.targeted_iff_of_none (hfreed : FreedRows router rows none after)
    (hrows : ∀ i ∈ rows, i < nwkRouteDiscoveryTableSize ∧ router.due i = true) :
    TargetedExpiry router after ↔ ∀ i ∈ rows, ∀ k,
        ¬ router.UnconfirmedRoute k (router.routeDiscTable i).destAddr := by
  have hroutes : after.routingTable = router.routingTable := hfreed.routes
  constructor
  · intro htargeted i hi k hroute
    obtain ⟨k', hroute', hfree⟩ :=
      htargeted.freed i ((hfreed.expired_iff hrows).mpr hi) k hroute
    rw [hroutes, hroute'.used] at hfree
    contradiction
  · intro hnone
    constructor
    · intro k hk
      exact absurd (congrFun hroutes k) hk
    · intro i hi k hroute
      exact absurd hroute (hnone i ((hfreed.expired_iff hrows).mp hi) k)
    · intro k _ hk
      exact absurd (congrFun hroutes k) hk

theorem FreedRows.targeted_iff_of_some {i k : ℕ}
    (hfreed : FreedRows router [i] (some k) after)
    (hi : i < nwkRouteDiscoveryTableSize) (hdue : router.due i = true)
    (hroute : router.UnconfirmedRoute k (router.routingTable k).destAddr) :
    TargetedExpiry router after ↔ (router.routingTable k).destAddr =
        (router.routeDiscTable i).destAddr := by
  have hroutes : after.routingTable = update router.routingTable k
      { router.routingTable k with used := false } := hfreed.routes
  have hexpired : ∀ j, DiscoveryExpired router after j ↔ j = i := by
    intro j
    rw [hfreed.expired_iff (by simpa using ⟨hi, hdue⟩), mem_singleton]
  have hfree : (after.routingTable k).used = false := by rw [hroutes, update_self]
  have hchanged : ∀ k', after.routingTable k' ≠ router.routingTable k' → k' = k := by
    intro k' hk'
    by_contra hne
    rw [hroutes, update_of_ne hne] at hk'
    contradiction
  constructor
  · intro htargeted
    have hne : after.routingTable k ≠ router.routingTable k := by
      intro heq
      rw [heq, hroute.used] at hfree
      contradiction
    obtain ⟨-, j, hj, hdest⟩ := htargeted.touched k hne
    rw [(hexpired j).mp hj] at hdest
    exact hdest.dest
  · intro hdest
    rw [hdest] at hroute
    constructor
    · intro k' hk'
      obtain rfl := hchanged k' hk'
      refine ⟨?_, i, (hexpired i).mpr rfl, hroute⟩
      rw [hroutes, update_self]
    · intro j hj _ _
      rw [(hexpired j).mp hj]
      exact ⟨k, hroute, hfree⟩
    · intro k₁ k₂ h₁ h₂
      rw [hchanged k₁ h₁, hchanged k₂ h₂]

theorem sameRowRoute_eq_some {k : ℕ} (hsome : router.sameRowRoute = some k) :
    router.UnconfirmedRoute k (router.routingTable k).destAddr := by
  obtain ⟨hlt, hused, hmatch⟩ := nwkArrayFindEnt_eq_some hsome
  rw [Bool.and_eq_true, bne_iff_ne] at hmatch
  exact ⟨hlt, hused, hmatch.2, rfl⟩

/-- An expiry frees a route of the discovery which has expired exactly when
the search happens to hit it. -/
theorem targetedExpiry_iff (router : MeshRouter) :
    TargetedExpiry router (zbNwkMeshExpiryRouteDisc router).1 ↔
      SearchHits router := by
  unfold zbNwkMeshExpiryRouteDisc SearchHits
  dsimp only
  by_cases hcnt : router.routeDiscTableCnt = 0
  · rw [if_neg (not_not.mpr hcnt)]
    refine iff_of_true ?_ (Or.inl hcnt)
    exact ((freedRows_nil router).targeted_iff_of_none (by simp)).mpr (by simp)
  · rw [if_pos hcnt, or_iff_right hcnt]
    have hnodup : (List.range nwkRouteDiscoveryTableSize).Nodup := nodup_range
    cases hsearch : router.sameRowRoute with
    | none =>
        have hfreed := expiryLoop_of_none hsearch hnodup
        rw [hfreed.targeted_iff_of_none (by simp)]
        cases hfirst : (List.range nwkRouteDiscoveryTableSize).find? router.due with
        | none =>
            refine iff_of_true ?_ trivial
            rw [List.find?_eq_none] at hfirst
            intro i hi
            obtain ⟨hmem, hdue⟩ := mem_filter.mp hi
            exact absurd hdue (hfirst i hmem)
        | some i => simp
    | some k =>
        have hfreed := expiryLoop_of_some hsearch hnodup
        cases hfirst : (List.range nwkRouteDiscoveryTableSize).find? router.due with
        | none =>
            rw [hfirst] at hfreed
            refine iff_of_true ?_ trivial
            exact (hfreed.targeted_iff_of_none (by simp)).mpr (by simp)
        | some i =>
            rw [hfirst] at hfreed
            exact hfreed.targeted_iff_of_some (mem_range.mp (mem_of_find?_eq_some hfirst))
              (List.find?_some hfirst) (sameRowRoute_eq_some hsearch)

end Call

/-- The discovery for 9 in row 0 expires.  The route to 9 is in row 2; rows 1
hold the route and the discovery for 8. -/
def misalignedRouter : MeshRouter :=
  { activeRouter 0 with
    routingTable := fun k =>
      { used := k < 3
        status := if k = 0 then .active else .discoveryUnderway
        destAddr := if k = 0 then 5 else if k = 1 then 8 else 9
        nextHopAddr := 4 }
    routeDiscTable := fun i =>
      { used := i < 2
        requestId := i
        sourceAddr := 3
        senderAddr := 3
        destAddr := if i = 0 then 9 else 8
        forwardCost := 7
        residualCost := 0xFF
        expirationTime := if i = 0 then 0 else nwkRouteDiscoveryExpiry } }

/-- The route to 8 is freed in place of the one to 9. -/
theorem not_targetedExpiry_misaligned :
    ((zbNwkMeshExpiryRouteDisc misalignedRouter).1.routingTable 1).used = false ∧
      ¬ TargetedExpiry misalignedRouter (zbNwkMeshExpiryRouteDisc misalignedRouter).1 := by
  refine ⟨by decide, ?_⟩
  intro htargeted
  have hexpired : DiscoveryExpired misalignedRouter
      (zbNwkMeshExpiryRouteDisc misalignedRouter).1 0 :=
    ⟨by decide, by decide, by decide⟩
  obtain ⟨k, hroute, hfree⟩ := htargeted.freed 0 hexpired 2
    ⟨by decide, by decide, by decide, by decide⟩
  obtain rfl : k = 2 := by
    have hlt : k < 3 := of_decide_eq_true hroute.used
    have hdest : (if k = 0 then 5 else if k = 1 then 8 else 9) = 9 := hroute.dest
    split at hdest
    · contradiction
    · split at hdest
      · contradiction
      · omega
  exact absurd hfree (by decide)

end Zboss
