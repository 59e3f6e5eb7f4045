import Zboss.ParentChoice
import Zboss.TransitionSystem

/-!
# Attempts to associate

`nwk_association_join` and the branch of `zb_mlme_associate_confirm` for
failures.  After a failure the parent is not tried again; when no parent is
left, a router tries all of them as an end device.  In the build of a router
`nwk_choose_parent` follows a null pointer when no parent is left, so that the
attempts never end with a confirm.
-/

namespace Zboss

open Option List TransitionSystem

def nwkStatusInvalidRequest : UInt8 := 0xC2

def nwkStatusNotPermitted : UInt8 := 0xC3

abbrev FailureStatus : Type := { status : UInt8 // status ≠ 0 }

/-- A device which associates.  The table, the own update identifier and the
map of identifiers are those of `RejoinNwk`; `joinParent` is the index in place
of the pointer `tmp.join.parent`.  A request to the MAC layer is logged with its
parent and the device type in its capability information, a join confirm with
its status; `outstanding` tells that the MAC layer has the buffer. -/
structure AssociationNwk extends RejoinNwk where
  joined : Bool
  savedJoin : RejoinJoinRequest
  joinParent : Option ℕ
  requests : List (ℕ × Bool)
  confirms : List UInt8
  outstanding : Bool

namespace AssociationNwk

/-- `nwk_choose_parent` with the capability information of a request. -/
def chooseParent (nwk : AssociationNwk) (panidRef : ℕ) (isRouter : Bool) :
    Option (Option (ParentCandidate × ℕ)) :=
  { nwk.toRejoinNwk with isRouter := isRouter }.nwkChooseParent panidRef

def nwkAssociationJoin (nwk : AssociationNwk) (request : RejoinJoinRequest) :
    Option (AssociationNwk × UInt8) :=
  if nwk.joined then some (nwk, nwkStatusInvalidRequest)
  else
    match nwk.panidRef request.extendedPanId with
    | none => some (nwk, nwkStatusNotPermitted)
    | some panidRef => do
        let bestParent ← nwk.chooseParent panidRef request.isRouter
        match bestParent with
        | none => return (nwk, nwkStatusNotPermitted)
        | some (_, i) =>
            return ({ nwk with
              savedJoin := request
              joinParent := some i
              requests := nwk.requests ++ [(i, request.isRouter)]
              outstanding := true }, 0)

def nwkJoinFailureConfirm (nwk : AssociationNwk) (status : UInt8) :
    AssociationNwk :=
  { nwk with confirms := nwk.confirms ++ [status] }

/-- `zb_nlme_join_request` with `ZB_NLME_REJOIN_METHOD_ASSOCIATION`. -/
def nlmeJoinRequest (nwk : AssociationNwk) (request : RejoinJoinRequest) :
    Option AssociationNwk := do
  let (nwk, ret) ← nwk.nwkAssociationJoin request
  if ret ≠ 0 then return nwk.nwkJoinFailureConfirm ret
  else return nwk

def resetPotentialParents (nwk : AssociationNwk) : AssociationNwk :=
  { nwk with
    savedJoin := { nwk.savedJoin with isRouter := false }
    candidates := nwk.candidates.map fun ne => { ne with potentialParent := true } }

def clearParent (nwk : AssociationNwk) : Option AssociationNwk := do
  let i ← nwk.joinParent
  let parent ← nwk.candidates[i]?
  return { nwk with
    candidates := nwk.candidates.set i { parent with potentialParent := false }
    outstanding := false }

def retry (nwk : AssociationNwk) : Option (AssociationNwk × UInt8) := do
  let (nwk, ret) ← nwk.nwkAssociationJoin nwk.savedJoin
  if ret = nwkStatusNotPermitted ∧ nwk.savedJoin.isRouter = true then
    let reset := nwk.resetPotentialParents
    reset.nwkAssociationJoin reset.savedJoin
  else return (nwk, ret)

def mlmeAssociateConfirm (nwk : AssociationNwk) (status : FailureStatus) :
    Option AssociationNwk :=
  if nwk.outstanding then do
    let nwk ← nwk.clearParent
    let (nwk, ret) ← nwk.retry
    if ret ≠ 0 then return nwk.nwkJoinFailureConfirm status.val
    else return nwk
  else some nwk

def start (nwk : AssociationNwk) : AssociationNwk :=
  { nwk with
    requests := []
    confirms := []
    outstanding := false }

def joinAttempts (nwk : AssociationNwk) (request : RejoinJoinRequest)
    (failures : List FailureStatus) : Option AssociationNwk := do
  let nwk ← nwk.start.nlmeJoinRequest request
  run mlmeAssociateConfirm nwk failures

structure BoundedAttempts (nwk : AssociationNwk) (n : ℕ) : Prop where
  total : nwk.requests.length ≤ 2 * n
  asRouter : nwk.requests.countP (·.2) ≤ n
  asEndDevice : nwk.requests.countP (!·.2) ≤ n
  once : nwk.requests.Nodup

/-- Either the request is outstanding, or it was confirmed once, with a
failure. -/
def Confirmed (nwk : AssociationNwk) : Prop :=
  nwk.outstanding = false ∧ ∃ status, nwk.confirms = [status] ∧ status ≠ 0

def GivesUp (nwk : AssociationNwk) (request : RejoinJoinRequest) : Prop :=
  ∀ failures, ∃ last, nwk.joinAttempts request failures = some last ∧
    last.BoundedAttempts nwk.candidates.length ∧
    (last.Confirmed ∨ last.outstanding = true ∧ last.confirms = [] ∧
      failures.length < 2 * nwk.candidates.length)

variable {ret : UInt8} {k : ℕ} {failures : List FailureStatus} {last : AssociationNwk}

theorem nwkAssociationJoin_cases {nwk next : AssociationNwk} {request : RejoinJoinRequest}
    (hjoin : nwk.nwkAssociationJoin request = some (next, ret)) :
    (next = nwk ∧ (ret = nwkStatusInvalidRequest ∧ nwk.joined = true ∨
        ret = nwkStatusNotPermitted)) ∨
      ∃ i ne, ret = 0 ∧ nwk.joined = false ∧ (nwk.panidRef request.extendedPanId).isSome ∧
        nwk.candidates[i]? = some ne ∧ ne.potentialParent = true ∧
        next = { nwk with
          savedJoin := request
          joinParent := some i
          requests := nwk.requests ++ [(i, request.isRouter)]
          outstanding := true } := by
  unfold nwkAssociationJoin at hjoin
  split at hjoin
  · rename_i hjoined
    obtain ⟨rfl, rfl⟩ := some_pair_inj hjoin
    exact Or.inl ⟨rfl, Or.inl ⟨rfl, hjoined⟩⟩
  · rename_i hjoined
    cases hpan : nwk.panidRef request.extendedPanId with
    | none =>
      rw [hpan] at hjoin
      obtain ⟨rfl, rfl⟩ := some_pair_inj hjoin
      exact Or.inl ⟨rfl, Or.inr rfl⟩
    | some panidRef =>
      rw [hpan] at hjoin
      obtain ⟨bestParent, hchoose, hrest⟩ := bind_eq_some_iff.mp hjoin
      cases bestParent with
      | none =>
        obtain ⟨rfl, rfl⟩ := some_pair_inj hrest
        exact Or.inl ⟨rfl, Or.inr rfl⟩
      | some best =>
        obtain ⟨ne, i⟩ := best
        obtain ⟨rfl, rfl⟩ := some_pair_inj hrest
        obtain ⟨hplace, hpasses, -⟩ := RejoinNwk.lastPassing_eq_some _ _
          ((RejoinNwk.nwkChooseParent_eq_some_iff _ _ _).mp hchoose)
        have heligible := (RejoinNwk.eligible_of_passes _ _ hpasses).1
        refine Or.inr ⟨i, ne, rfl, ?_, rfl, hplace, heligible.potentialParent, rfl⟩
        simpa using hjoined

structure SameNetwork (nwk next : AssociationNwk) : Prop where
  role : next.role = nwk.role
  joined : next.joined = nwk.joined
  panidRef : next.panidRef = nwk.panidRef

theorem SameNetwork.trans {nwk mid next : AssociationNwk}
    (hfirst : nwk.SameNetwork mid) (hsecond : mid.SameNetwork next) :
    nwk.SameNetwork next :=
  ⟨hsecond.role.trans hfirst.role, hsecond.joined.trans hfirst.joined,
    hsecond.panidRef.trans hfirst.panidRef⟩

theorem sameNetwork_nwkAssociationJoin
    {nwk next : AssociationNwk} {request : RejoinJoinRequest}
    (hjoin : nwk.nwkAssociationJoin request = some (next, ret)) :
    nwk.SameNetwork next := by
  rcases nwkAssociationJoin_cases hjoin with ⟨rfl, -⟩ | ⟨i, ne, -, -, -, -, -, rfl⟩
  · exact ⟨rfl, rfl, rfl⟩
  · exact ⟨rfl, rfl, rfl⟩

structure Attempted (nwk : AssociationNwk) (n : ℕ) : Prop where
  length : nwk.candidates.length = n
  nodup : nwk.requests.Nodup
  inside : ∀ attempt ∈ nwk.requests, attempt.1 < n
  fallback : nwk.savedJoin.isRouter = true → ∀ attempt ∈ nwk.requests, attempt.2 = true

def SpentAt (nwk : AssociationNwk) (isRouter : Bool) (i : ℕ) : Prop :=
  (i, isRouter) ∈ nwk.requests → ∀ ne, nwk.candidates[i]? = some ne →
    ne.potentialParent = false

def Waits (nwk : AssociationNwk) : Prop :=
  ∃ i, nwk.joinParent = some i ∧ i < nwk.candidates.length ∧
    ∀ k, k ≠ i → nwk.SpentAt nwk.savedJoin.isRouter k

variable {nwk next : AssociationNwk} {n : ℕ} {request : RejoinJoinRequest}

section

variable (hattempted : nwk.Attempted n)

include hattempted

theorem Attempted.nwkAssociationJoin (hspent : ∀ i, nwk.SpentAt request.isRouter i)
    (hfallback : request.isRouter = true → ∀ attempt ∈ nwk.requests, attempt.2 = true)
    (hjoin : nwk.nwkAssociationJoin request = some (next, 0)) :
    next.Attempted n ∧ next.Waits ∧ next.outstanding = true ∧
      next.confirms = nwk.confirms ∧ next.savedJoin = request ∧
      next.requests.length = nwk.requests.length + 1 := by
  rcases nwkAssociationJoin_cases hjoin with ⟨-, ⟨hzero, -⟩ | hzero⟩ |
    ⟨i, ne, -, -, -, hplace, hpotential, rfl⟩
  · exact absurd hzero (by decide)
  · exact absurd hzero (by decide)
  have hlt := (List.getElem?_eq_some_iff.mp hplace).1
  have hnew : (i, request.isRouter) ∉ nwk.requests := by
    intro hmem
    have hfalse := hspent i hmem ne hplace
    rw [hpotential] at hfalse
    contradiction
  refine ⟨⟨hattempted.length, ?_, ?_, ?_⟩, ⟨i, rfl, hlt, ?_⟩, rfl, rfl, rfl,
    by rw [length_append, length_singleton]⟩
  · refine nodup_append.mpr ⟨hattempted.nodup, nodup_singleton _, ?_⟩
    rintro attempt hold _ hmem rfl
    rw [mem_singleton.mp hmem] at hold
    exact hnew hold
  · intro attempt hmem
    rcases mem_append.mp hmem with hold | hnew
    · exact hattempted.inside attempt hold
    · rw [mem_singleton.mp hnew, ← hattempted.length]
      exact hlt
  · intro hrouter attempt hmem
    rcases mem_append.mp hmem with hold | hnew
    · exact hfallback hrouter attempt hold
    · rw [mem_singleton.mp hnew]
      exact hrouter
  · intro k hk hmem
    rcases mem_append.mp hmem with hold | hnew
    · exact hspent k hold
    · exact absurd (Prod.mk.inj (mem_singleton.mp hnew)).1 hk

theorem Attempted.clearParent (hwaits : nwk.Waits) :
    ∃ next, nwk.clearParent = some next ∧ next.Attempted n ∧
      (∀ i, next.SpentAt next.savedJoin.isRouter i) ∧
      next.outstanding = false ∧ next.confirms = nwk.confirms ∧
      next.savedJoin = nwk.savedJoin ∧ next.requests = nwk.requests ∧
      nwk.SameNetwork next := by
  obtain ⟨i, hparent, hlt, hspent⟩ := hwaits
  have hplace := List.getElem?_eq_getElem hlt
  have hclear : nwk.clearParent = some { nwk with
      candidates := nwk.candidates.set i
        { nwk.candidates[i] with potentialParent := false }
      outstanding := false } := by
    rw [AssociationNwk.clearParent, hparent, bind_eq_bind, bind_some, hplace]
    rfl
  refine ⟨_, hclear, ⟨?_, hattempted.nodup, hattempted.inside,
    hattempted.fallback⟩, ?_, rfl, rfl, rfl, rfl, rfl, rfl, rfl⟩
  · exact length_set.trans hattempted.length
  · intro k hmem ne hne
    by_cases hk : k = i
    · rw [hk, List.getElem?_set_self hlt] at hne
      obtain rfl := some.inj hne
      rfl
    · rw [List.getElem?_set_ne (Ne.symm hk)] at hne
      exact hspent k hk hmem ne hne

theorem Attempted.resetPotentialParents (hrouter : nwk.savedJoin.isRouter = true) :
    nwk.resetPotentialParents.Attempted n ∧
      ∀ i, nwk.resetPotentialParents.SpentAt false i := by
  refine ⟨⟨length_map .. |>.trans hattempted.length, hattempted.nodup,
    hattempted.inside, nofun⟩, fun i hmem => ?_⟩
  exact absurd (hattempted.fallback hrouter _ hmem) Bool.false_ne_true

theorem Attempted.retry (hspent : ∀ i, nwk.SpentAt nwk.savedJoin.isRouter i)
    (hretry : nwk.retry = some (next, ret)) :
    next.Attempted n ∧ next.confirms = nwk.confirms ∧ nwk.SameNetwork next ∧
      (ret ≠ 0 ∧ next.outstanding = nwk.outstanding ∨
        ret = 0 ∧ next.Waits ∧ next.outstanding = true ∧
          next.savedJoin.extendedPanId = nwk.savedJoin.extendedPanId ∧
          next.requests.length = nwk.requests.length + 1) := by
  obtain ⟨⟨mid, code⟩, hfirst, hrest⟩ := bind_eq_some_iff.mp hretry
  have hsame := sameNetwork_nwkAssociationJoin hfirst
  dsimp only at hrest
  split at hrest
  · rename_i hagain
    obtain ⟨rfl, hrouter⟩ := hagain
    rcases nwkAssociationJoin_cases hfirst with ⟨rfl, -⟩ | ⟨_, _, hzero, -⟩
    · obtain ⟨hreset, hfresh⟩ := hattempted.resetPotentialParents hrouter
      have hsame' : mid.SameNetwork next :=
        ⟨(sameNetwork_nwkAssociationJoin hrest).role,
          (sameNetwork_nwkAssociationJoin hrest).joined,
          (sameNetwork_nwkAssociationJoin hrest).panidRef⟩
      by_cases hret : ret = 0
      · subst hret
        obtain ⟨hnext, hwaits, hout, hconfirms, hsaved, hlength⟩ :=
          hreset.nwkAssociationJoin hfresh (absurd · Bool.false_ne_true) hrest
        exact ⟨hnext, hconfirms, hsame',
          Or.inr ⟨rfl, hwaits, hout, by rw [hsaved]; rfl, hlength⟩⟩
      · rcases nwkAssociationJoin_cases hrest with ⟨rfl, -⟩ | ⟨_, _, hzero, -⟩
        · exact ⟨hreset, rfl, hsame', Or.inl ⟨hret, rfl⟩⟩
        · exact absurd hzero hret
    · exact absurd hzero (by decide)
  · obtain ⟨rfl, rfl⟩ := some_pair_inj hrest
    by_cases hret : code = 0
    · subst hret
      obtain ⟨hnext, hwaits, hout, hconfirms, hsaved, hlength⟩ :=
        hattempted.nwkAssociationJoin hspent hattempted.fallback hfirst
      exact ⟨hnext, hconfirms, hsame, Or.inr ⟨rfl, hwaits, hout, by rw [hsaved], hlength⟩⟩
    · rcases nwkAssociationJoin_cases hfirst with ⟨rfl, -⟩ | ⟨_, _, hzero, -⟩
      · exact ⟨hattempted, rfl, hsame, Or.inl ⟨hret, rfl⟩⟩
      · exact absurd hzero hret

end

/-! ## Runs of failures -/

/-- After `k` failures: the request `k + 1` is outstanding, or there was a
confirm. -/
structure Reached (nwk : AssociationNwk) (n k : ℕ) : Prop where
  attempted : nwk.Attempted n
  progress : nwk.outstanding = true ∧ nwk.Waits ∧ nwk.confirms = [] ∧
    nwk.requests.length = k + 1 ∨ nwk.Confirmed

theorem Reached.mlmeAssociateConfirm {status : FailureStatus} (hreached : nwk.Reached n k)
    (hconfirm : nwk.mlmeAssociateConfirm status = some next) :
    next.Reached n (k + 1) ∧ nwk.SameNetwork next := by
  unfold AssociationNwk.mlmeAssociateConfirm at hconfirm
  rcases hreached.progress with ⟨hout, hwaits, hconfirms, hlength⟩ | hdone
  · rw [if_pos hout] at hconfirm
    obtain ⟨cleared, hclear, hcleared, hspent, hidle, hkept, -, hrequests,
      hnet⟩ := hreached.attempted.clearParent hwaits
    rw [hclear, bind_eq_bind, bind_some] at hconfirm
    obtain ⟨⟨after, ret⟩, hretry, hrest⟩ := bind_eq_some_iff.mp hconfirm
    obtain ⟨hattempted, hsame, hnet', hcases⟩ := hcleared.retry hspent hretry
    have hnone : after.confirms = [] := by rw [hsame, hkept, hconfirms]
    rcases hcases with ⟨hret, hout'⟩ | ⟨rfl, hwaits', hout', -, hlength'⟩
    · obtain rfl := some.inj ((if_pos hret).symm.trans hrest)
      refine ⟨⟨⟨hattempted.length, hattempted.nodup, hattempted.inside,
        hattempted.fallback⟩, Or.inr ⟨hout'.trans hidle, status.val, ?_,
          status.property⟩⟩, (hnet.trans hnet').trans ⟨rfl, rfl, rfl⟩⟩
      rw [nwkJoinFailureConfirm, hnone]
      rfl
    · obtain rfl := some.inj hrest
      refine ⟨⟨hattempted, Or.inl ⟨hout', hwaits', hnone, ?_⟩⟩, hnet.trans hnet'⟩
      rw [hlength', hrequests, hlength]
  · rw [if_neg (by rw [hdone.1]; exact Bool.false_ne_true)] at hconfirm
    obtain rfl := some.inj hconfirm
    exact ⟨⟨hreached.attempted, Or.inr hdone⟩, ⟨rfl, rfl, rfl⟩⟩

theorem Reached.of_run (hreached : nwk.Reached n k)
    (hrun : run AssociationNwk.mlmeAssociateConfirm nwk failures = some last) :
    last.Reached n (k + failures.length) := by
  induction failures generalizing nwk k with
  | nil =>
    obtain rfl := some.inj hrun
    exact hreached
  | cons status rest ih =>
    obtain ⟨next, hconfirm, hrest⟩ := run_cons_eq_some.mp hrun
    have hnext := (hreached.mlmeAssociateConfirm hconfirm).1
    rw [length_cons, Nat.add_comm rest.length, ← Nat.add_assoc]
    exact ih hnext hrest

theorem reached_nlmeJoinRequest (hjoin : nwk.start.nlmeJoinRequest request = some next) :
    next.Reached nwk.candidates.length 0 ∧ nwk.SameNetwork next ∧ (next.Confirmed ∨
        next.savedJoin.extendedPanId = request.extendedPanId) := by
  obtain ⟨⟨after, ret⟩, hfirst, hrest⟩ := bind_eq_some_iff.mp hjoin
  have hstart : nwk.start.Attempted nwk.candidates.length :=
    ⟨rfl, nodup_nil, nofun, fun _ => nofun⟩
  have hsame := sameNetwork_nwkAssociationJoin hfirst
  have hnet : nwk.SameNetwork after := ⟨hsame.role, hsame.joined, hsame.panidRef⟩
  by_cases hret : ret = 0
  · subst hret
    obtain rfl := some.inj hrest
    obtain ⟨hnext, hwaits, hout, hconfirms, hsaved, hlength⟩ :=
      hstart.nwkAssociationJoin (fun _ => nofun) (fun _ => nofun) hfirst
    exact ⟨⟨hnext, Or.inl ⟨hout, hwaits, hconfirms, hlength⟩⟩, hnet,
      Or.inr (by rw [hsaved])⟩
  · rcases nwkAssociationJoin_cases hfirst with ⟨rfl, -⟩ | ⟨_, _, hzero, -⟩
    · obtain rfl := some.inj ((if_pos hret).symm.trans hrest)
      have hdone : (nwk.start.nwkJoinFailureConfirm ret).Confirmed := ⟨rfl, ret, rfl, hret⟩
      exact ⟨⟨⟨rfl, nodup_nil, nofun, fun _ => nofun⟩, Or.inr hdone⟩,
        ⟨rfl, rfl, rfl⟩, Or.inl hdone⟩
    · exact absurd hzero hret

theorem Attempted.countP_le (hattempted : nwk.Attempted n) (isRouter : Bool) :
    nwk.requests.countP (·.2 = isRouter) ≤ n := by
  have hnodup : ((nwk.requests.filter (·.2 = isRouter)).map Prod.fst).Nodup := by
    refine (hattempted.nodup.filter _).map_on ?_
    intro x hx y hy hsame
    have hx' : x.2 = isRouter := by simpa using (mem_filter.mp hx).2
    have hy' : y.2 = isRouter := by simpa using (mem_filter.mp hy).2
    exact Prod.ext hsame (hx'.trans hy'.symm)
  have hsubset : (nwk.requests.filter (·.2 = isRouter)).map Prod.fst ⊆ List.range n := by
    intro i hi
    obtain ⟨attempt, hmem, rfl⟩ := mem_map.mp hi
    exact mem_range.mpr (hattempted.inside attempt (mem_filter.mp hmem).1)
  have hlength := (subperm_of_subset hnodup hsubset).length_le
  rwa [length_map, length_range, ← countP_eq_length_filter] at hlength

theorem Attempted.bounded (hattempted : nwk.Attempted n) : nwk.BoundedAttempts n := by
  have hrouter := hattempted.countP_le true
  have hendDevice := hattempted.countP_le false
  have hsplit := length_eq_countP_add_countP (·.2) (l := nwk.requests)
  simp only [Bool.decide_eq_true, Bool.decide_eq_false] at hrouter hendDevice
  have hnot : nwk.requests.countP (fun a => decide ¬ a.2 = true) =
      nwk.requests.countP (!·.2) := by
    refine countP_congr fun attempt _ => ?_
    simp
  refine ⟨?_, hrouter, hendDevice, hattempted.nodup⟩
  rw [hsplit, hnot]
  omega

theorem bounded_of_joinAttempts (hjoin : nwk.joinAttempts request failures = some last) :
    last.BoundedAttempts nwk.candidates.length ∧
      (last.Confirmed ∨ last.outstanding = true ∧ last.confirms = [] ∧
        failures.length < 2 * nwk.candidates.length) := by
  obtain ⟨first, hfirst, hrun⟩ := bind_eq_some_iff.mp hjoin
  have hreached := (reached_nlmeJoinRequest hfirst).1.of_run hrun
  have hbounded := hreached.attempted.bounded
  refine ⟨hbounded, ?_⟩
  rcases hreached.progress with ⟨hout, -, hconfirms, hlength⟩ | hdone
  · have htotal := hbounded.total
    exact Or.inr ⟨hout, hconfirms, by omega⟩
  · exact Or.inl hdone

theorem nwkAssociationJoin_isSome (hrole : nwk.role = .endDevice)
    (request : RejoinJoinRequest) :
    (nwk.nwkAssociationJoin request).isSome := by
  unfold nwkAssociationJoin
  split
  · rfl
  · cases nwk.panidRef request.extendedPanId with
    | none => rfl
    | some panidRef =>
      have hchoose : (nwk.chooseParent panidRef request.isRouter).isSome :=
        (RejoinNwk.nwkChooseParent_isSome_iff _ _).mpr fun _ => hrole
      obtain ⟨bestParent, hbest⟩ := isSome_iff_exists.mp hchoose
      simp only [hbest, bind_eq_bind, bind_some]
      cases bestParent with
      | none => rfl
      | some best => rfl

theorem retry_isSome (hrole : nwk.role = .endDevice) : nwk.retry.isSome := by
  obtain ⟨⟨mid, ret⟩, hfirst⟩ := isSome_iff_exists.mp
    (nwkAssociationJoin_isSome hrole nwk.savedJoin)
  rw [retry, hfirst, bind_eq_bind, bind_some]
  dsimp only
  split
  · have hreset : mid.resetPotentialParents.role = .endDevice :=
      (sameNetwork_nwkAssociationJoin hfirst).role.trans hrole
    exact nwkAssociationJoin_isSome hreset _
  · rfl

theorem Reached.exists_confirm (hreached : nwk.Reached n k)
    (hrole : nwk.role = .endDevice) (status : FailureStatus) :
    ∃ next, nwk.mlmeAssociateConfirm status = some next := by
  unfold AssociationNwk.mlmeAssociateConfirm
  rcases hreached.progress with ⟨hout, hwaits, -, -⟩ | hdone
  · obtain ⟨cleared, hclear, -, -, -, -, -, -, hnet⟩ :=
      hreached.attempted.clearParent hwaits
    obtain ⟨⟨after, ret⟩, hretry⟩ := isSome_iff_exists.mp
      (retry_isSome (hnet.role.trans hrole))
    rw [if_pos hout, hclear, bind_eq_bind, bind_some, hretry, bind_eq_bind, bind_some]
    dsimp only
    split
    · exact ⟨_, rfl⟩
    · exact ⟨_, rfl⟩
  · exact ⟨nwk, if_neg (by rw [hdone.1]; exact Bool.false_ne_true)⟩

theorem Reached.exists_run (hreached : nwk.Reached n k)
    (hrole : nwk.role = .endDevice) (failures : List FailureStatus) :
    ∃ last, run AssociationNwk.mlmeAssociateConfirm nwk failures =
      some last := by
  induction failures generalizing nwk k with
  | nil => exact ⟨nwk, rfl⟩
  | cons status rest ih =>
    obtain ⟨next, hconfirm⟩ := hreached.exists_confirm hrole status
    obtain ⟨hnext, hnet⟩ := hreached.mlmeAssociateConfirm hconfirm
    obtain ⟨last, hrun⟩ := ih hnext (hnet.role.trans hrole)
    exact ⟨last, run_cons_eq_some.mpr ⟨next, hconfirm, hrun⟩⟩

theorem run_of_not_outstanding (hidle : nwk.outstanding = false)
    (failures : List FailureStatus) :
    run mlmeAssociateConfirm nwk failures = some nwk := by
  induction failures with
  | nil => rfl
  | cons status rest ih =>
    have hconfirm : nwk.mlmeAssociateConfirm status = some nwk :=
      if_neg (by rw [hidle]; exact Bool.false_ne_true)
    exact run_cons_eq_some.mpr ⟨nwk, hconfirm, ih⟩

structure RouterChoice (nwk : AssociationNwk) (extPanId : ExtPanId) : Prop where
  role : nwk.role = .router
  joined : nwk.joined = false
  panidRef : (nwk.panidRef extPanId).isSome

theorem RouterChoice.sameNetwork {extPanId : ExtPanId}
    (hchoice : nwk.RouterChoice extPanId) (hnet : nwk.SameNetwork next) :
    next.RouterChoice extPanId :=
  ⟨hnet.role.trans hchoice.role, hnet.joined.trans hchoice.joined,
    by rw [hnet.panidRef]; exact hchoice.panidRef⟩

theorem RouterChoice.ret_eq_zero (hchoice : nwk.RouterChoice request.extendedPanId)
    (hjoin : nwk.nwkAssociationJoin request = some (next, ret)) : ret = 0 := by
  obtain ⟨panidRef, hpan⟩ := isSome_iff_exists.mp hchoice.panidRef
  unfold AssociationNwk.nwkAssociationJoin at hjoin
  rw [if_neg (by rw [hchoice.joined]; exact Bool.false_ne_true), hpan] at hjoin
  obtain ⟨bestParent, hchoose, hrest⟩ := bind_eq_some_iff.mp hjoin
  cases bestParent with
  | none =>
    have hnull := (RejoinNwk.nwkChooseParent_eq_null_iff _ _).mp hchoose
    have hrole : nwk.role = .endDevice := hnull.2
    rw [hchoice.role] at hrole
    contradiction
  | some best => exact (some_pair_inj hrest).2.symm

section

variable (hreached : nwk.Reached n k) (hout : nwk.outstanding = true)
  (hchoice : nwk.RouterChoice nwk.savedJoin.extendedPanId)

include hreached hout hchoice

theorem Reached.router_confirm {status : FailureStatus}
    (hconfirm : nwk.mlmeAssociateConfirm status = some next) :
    next.outstanding = true ∧ next.RouterChoice next.savedJoin.extendedPanId := by
  unfold AssociationNwk.mlmeAssociateConfirm at hconfirm
  rcases hreached.progress with ⟨-, hwaits, -, -⟩ | hdone
  · rw [if_pos hout] at hconfirm
    obtain ⟨cleared, hclear, hcleared, hspent, -, -, hsaved, -, hnet⟩ :=
      hreached.attempted.clearParent hwaits
    rw [hclear, bind_eq_bind, bind_some] at hconfirm
    obtain ⟨⟨after, ret⟩, hretry, hrest⟩ := bind_eq_some_iff.mp hconfirm
    have hchoice' : cleared.RouterChoice cleared.savedJoin.extendedPanId := by
      rw [hsaved]
      exact hchoice.sameNetwork hnet
    have hret : ret = 0 := by
      obtain ⟨⟨mid, code⟩, hfirst, hagain⟩ := bind_eq_some_iff.mp hretry
      obtain rfl := hchoice'.ret_eq_zero hfirst
      exact (some_pair_inj hagain).2.symm
    obtain ⟨-, -, hnet', hcases⟩ := hcleared.retry hspent hretry
    rcases hcases with ⟨hne, -⟩ | ⟨-, -, hout', hsaved', -⟩
    · exact absurd hret hne
    · subst hret
      obtain rfl := some.inj hrest
      rw [hsaved']
      exact ⟨hout', hchoice'.sameNetwork hnet'⟩
  · exact absurd (hdone.1.symm.trans hout) Bool.false_ne_true

theorem Reached.router_run
    (hrun : run AssociationNwk.mlmeAssociateConfirm nwk failures = some last) :
    last.outstanding = true := by
  induction failures generalizing nwk k with
  | nil =>
    obtain rfl := some.inj hrun
    exact hout
  | cons status rest ih =>
    obtain ⟨next, hconfirm, hrest⟩ := run_cons_eq_some.mp hrun
    obtain ⟨hout', hchoice'⟩ := hreached.router_confirm hout hchoice hconfirm
    exact ih (hreached.mlmeAssociateConfirm hconfirm).1 hout' hchoice' hrest

end

/-- The attempts end with a confirm exactly if the build is that of an end
device, or no choice of a parent is reached. -/
theorem givesUp_iff (nwk : AssociationNwk) (request : RejoinJoinRequest) :
    nwk.GivesUp request ↔ nwk.role = .endDevice ∨ nwk.joined = true ∨
      nwk.panidRef request.extendedPanId = none := by
  constructor
  · intro hgives
    by_contra hnot
    obtain ⟨hrole, hrest⟩ := not_or.mp hnot
    obtain ⟨hjoined, hpan⟩ := not_or.mp hrest
    have hchoice : nwk.start.RouterChoice request.extendedPanId := by
      refine ⟨?_, Bool.eq_false_iff.mpr hjoined, isSome_iff_ne_none.mpr hpan⟩
      cases hcase : nwk.role with
      | router => exact hcase
      | endDevice => exact absurd hcase hrole
    obtain ⟨last, hjoin, -, hcases⟩ := hgives
      (List.replicate (2 * nwk.candidates.length) ⟨1, by decide⟩)
    obtain ⟨first, hfirst, hrun⟩ := bind_eq_some_iff.mp hjoin
    obtain ⟨⟨after, ret⟩, hcall, hreturn⟩ := bind_eq_some_iff.mp hfirst
    obtain rfl := hchoice.ret_eq_zero hcall
    obtain rfl := some.inj hreturn
    obtain ⟨hreached, hnet, -⟩ := reached_nlmeJoinRequest hfirst
    have hsaved : after.savedJoin = request ∧ after.outstanding = true := by
      rcases nwkAssociationJoin_cases hcall with ⟨-, ⟨hzero, -⟩ | hzero⟩ |
        ⟨_, _, -, -, -, -, -, rfl⟩
      · exact absurd hzero (by decide)
      · exact absurd hzero (by decide)
      · exact ⟨rfl, rfl⟩
    have hout := hreached.router_run hsaved.2 (by
      rw [hsaved.1]
      exact hchoice.sameNetwork (sameNetwork_nwkAssociationJoin hcall)) hrun
    rcases hcases with hdone | ⟨-, -, hlt⟩
    · exact absurd (hdone.1.symm.trans hout) Bool.false_ne_true
    · rw [length_replicate] at hlt
      exact Nat.lt_irrefl _ hlt
  · intro hcondition failures
    suffices hsome : ∃ last, nwk.joinAttempts request failures = some last by
      obtain ⟨last, hjoin⟩ := hsome
      exact ⟨last, hjoin, bounded_of_joinAttempts hjoin⟩
    by_cases hrole : nwk.role = .endDevice
    · obtain ⟨⟨after, ret⟩, hcall⟩ := isSome_iff_exists.mp
        (@nwkAssociationJoin_isSome nwk.start hrole request)
      have hfirst : ∃ first, nwk.start.nlmeJoinRequest request = some first := by
        rw [nlmeJoinRequest, hcall, bind_eq_bind, bind_some]
        dsimp only
        split
        · exact ⟨_, rfl⟩
        · exact ⟨_, rfl⟩
      obtain ⟨first, hfirst⟩ := hfirst
      obtain ⟨hreached, hnet, -⟩ := reached_nlmeJoinRequest hfirst
      obtain ⟨last, hrun⟩ := hreached.exists_run (hnet.role.trans hrole) failures
      exact ⟨last, bind_eq_some_iff.mpr ⟨first, hfirst, hrun⟩⟩
    · have hfirst : ∃ ret, ret ≠ 0 ∧
          nwk.start.nwkAssociationJoin request = some (nwk.start, ret) := by
        unfold nwkAssociationJoin
        rcases hcondition.resolve_left hrole with hjoined | hpan
        · exact ⟨_, by decide, if_pos hjoined⟩
        · split
          · exact ⟨_, by decide, rfl⟩
          · have hstart : nwk.start.panidRef request.extendedPanId = none :=
              hpan
            rw [hstart]
            exact ⟨_, by decide, rfl⟩
      obtain ⟨ret, hret, hcall⟩ := hfirst
      have hconfirm : nwk.start.nlmeJoinRequest request =
          some (nwk.start.nwkJoinFailureConfirm ret) := by
        rw [nlmeJoinRequest, hcall]
        exact if_pos hret
      exact ⟨_, bind_eq_some_iff.mpr ⟨_, hconfirm, run_of_not_outstanding rfl failures⟩⟩

/-- A router with one parent which refuses it. -/
theorem not_givesUp_router :
    let ne : ParentCandidate := {
      shortAddr := 1, longAddr := .zero, panidRef := 0, lqi := 255
      updateId := 0, depth := 0, stackProfile := 1, permitJoining := true
      routerCapacity := true, endDeviceCapacity := true
      potentialParent := true }
    let request : RejoinJoinRequest := ⟨77, true⟩
    let nwk : AssociationNwk := {
      role := .router, state := .idle, candidates := [ne]
      panidRef := fun _ => some 0, extendedPanId := 0
      isRouter := true, parent := none, updateId := 0
      rxOnWhenIdle := true, extendedAddress := .zero
      callbacks := [], alarms := [], joined := false, savedJoin := request
      joinParent := none, requests := [], confirms := []
      outstanding := false }
    ¬ nwk.GivesUp request := by
  intro ne request nwk hgives
  obtain ⟨last, hjoin, -⟩ := hgives [⟨1, by decide⟩, ⟨1, by decide⟩]
  have hcrash : (nwk.joinAttempts request
      [⟨1, by decide⟩, ⟨1, by decide⟩]).isNone := by decide
  rw [hjoin] at hcrash
  contradiction

end AssociationNwk

end Zboss
