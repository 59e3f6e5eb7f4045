import Zboss.BindingTableRefinement
import Zboss.KnownAddresses

/-!
# Pairs of 64-bit addresses

Whether a device has a pair bound is read with the addresses it knows.  Requests
to bind keep the pairs which are bound, and requests to unbind those which are
not.
-/

namespace Zboss

open Option

namespace BindingState

def Bound (state : BindingState) (req : ApsmeBindingReq) : Prop :=
  ∃ src ∈ ieeeRef state.addr req.srcAddr, ∃ dst ∈ ieeeRef state.addr req.dstAddrLong,
      (req.src src, .longAddr dst req.dstEndpoint) ∈ state.binding.pairs

def Cleared (state : BindingState) (req : ApsmeBindingReq) : Prop :=
  ∃ src ∈ ieeeRef state.addr req.srcAddr, (∃ dst ∈ ieeeRef state.addr req.dstAddrLong,
      (req.src src, .longAddr dst req.dstEndpoint) ∉ state.binding.pairs) ∨
    ∀ dst, (req.src src, dst) ∉ state.binding.pairs

def CanBind (state : BindingState) (req : ApsmeBindingReq) : Prop :=
  ∃ pair, namedPair state.addr req true = some pair ∧
    (apsFindSrcRef state.binding pair.1).getD state.binding.srcNElements <
      apsSrcBindingTableSize ∧
    state.binding.dstNElements < apsDstBindingTableSize

def CanUnbind (state : BindingState) (req : ApsmeBindingReq) : Prop :=
  ∃ src ∈ ieeeRef state.addr req.srcAddr, ∀ s ∈ apsFindSrcRef state.binding (req.src src),
      ∃ pair, namedPair state.addr req false = some pair

/-- A request to unbind finds a row of the source only if the pair is bound. -/
def Tells (state : BindingState) (req : ApsmeBindingReq) : Prop :=
  ∀ src ∈ ieeeRef state.addr req.srcAddr,
    ∀ s ∈ apsFindSrcRef state.binding (req.src src), state.Bound req

def Can (state : BindingState) (req : ApsmeBindingReq) : Bool → Prop
  | true => state.CanBind req
  | false => state.CanUnbind req ∧ (BindingCall.unbind req).Safe state

def Settled (state : BindingState) (req : ApsmeBindingReq) : Bool → Prop
  | true => state.Bound req
  | false => state.Cleared req

end BindingState

open BindingState

section Requests

variable {state next : BindingState} {req : ApsmeBindingReq}

theorem BindingState.Cleared.not_bound (hcleared : state.Cleared req) :
    ¬state.Bound req := by
  obtain ⟨src, hsrc, hcases⟩ := hcleared
  rintro ⟨src', hsrc', dst', hdst', hmem⟩
  obtain rfl := some.inj (hsrc.symm.trans hsrc')
  rcases hcases with ⟨dst, hdst, habsent⟩ | habsent
  · obtain rfl := some.inj (hdst.symm.trans hdst')
    exact habsent hmem
  · exact habsent _ hmem

def KeepsKnown (g g' : AddrGlobals) : Prop :=
  ∀ ieee ref, ieeeRef g ieee = some ref → ieeeRef g' ieee = some ref

theorem KeepsKnown.trans {g g' g'' : AddrGlobals} (hfirst : KeepsKnown g g')
    (hsecond : KeepsKnown g' g'') : KeepsKnown g g'' :=
  fun ieee ref hknown => hsecond ieee ref (hfirst ieee ref hknown)

theorem SameTable.keepsKnown {g g' : AddrGlobals} (hsame : SameTable g g') :
    KeepsKnown g g' :=
  fun ieee _ hknown => (hsame.ieeeRef_eq ieee).trans hknown

theorem keepsKnown_zbAddressByIeee {g g' : AddrGlobals} {ieee : IeeeAddr}
    {create : Bool} {ret : Except RetError ℕ}
    (hcall : zbAddressByIeee g ieee create false = some (g', ret)) :
    KeepsKnown g g' :=
  fun _ _ hknown => ieeeRef_stays hknown hcall

theorem BindingState.Bound.mono (hbound : state.Bound req)
    (hkeeps : KeepsKnown state.addr next.addr)
    (hpairs : state.binding.pairs ⊆ next.binding.pairs) : next.Bound req := by
  obtain ⟨src, hsrc, dst, hdst, hmem⟩ := hbound
  exact ⟨src, hkeeps _ _ hsrc, dst, hkeeps _ _ hdst, hpairs hmem⟩

theorem BindingState.Cleared.mono (hcleared : state.Cleared req)
    (hkeeps : KeepsKnown state.addr next.addr)
    (hpairs : next.binding.pairs ⊆ state.binding.pairs) :
    next.Cleared req := by
  obtain ⟨src, hsrc, hcases⟩ := hcleared
  refine ⟨src, hkeeps _ _ hsrc, ?_⟩
  rcases hcases with ⟨dst, hdst, habsent⟩ | habsent
  · exact .inl ⟨dst, hkeeps _ _ hdst, fun hmem => habsent (hpairs hmem)⟩
  · exact .inr fun dst hmem => habsent dst (hpairs hmem)

theorem bindingDst_longAddr {g g' : AddrGlobals} {dst : ApsBindDst}
    (hmode : req.addrMode = apsAddrMode64EndpPresent)
    (hdst : bindingDst g req = some (g', .ok dst)) :
    ∃ ref, dst = .longAddr ref req.dstEndpoint ∧
      ieeeRef g' req.dstAddrLong = some ref ∧ KeepsKnown g g' := by
  rw [bindingDst, if_pos hmode] at hdst
  obtain ⟨⟨g₁, ret⟩, hcall, hret⟩ := map_eq_some_iff.mp hdst
  cases ret with
  | error err => simp at hret
  | ok ref =>
    simp only [Prod.mk.injEq, Except.ok.injEq] at hret
    obtain ⟨rfl, rfl⟩ := hret
    exact ⟨ref, rfl, ieeeRef_of_zbAddressByIeee hcall, keepsKnown_zbAddressByIeee hcall⟩

section

variable (hwf : state.binding.WellFormed) (hmode : req.addrMode = apsAddrMode64EndpPresent)

include hwf hmode

theorem exec_bind (hcan : state.CanBind req) : ∃ addr binding,
      (BindingCall.bind req).exec state = some (addr, binding, .ok) ∧
      binding.WellFormed ∧ Bound ⟨addr, binding⟩ req ∧
      ∀ other, state.Bound other → Bound ⟨addr, binding⟩ other := by
  obtain ⟨pair, hpair, hplace, hroom⟩ := hcan
  obtain ⟨g₁, src, g₂, dst, hsrc, hdst, rfl⟩ := exists_of_namedPair hpair
  obtain ⟨ref, rfl, href, hkeeps⟩ := bindingDst_longAddr hmode hdst
  generalize hs : (apsFindSrcRef state.binding (req.src src)).getD
    state.binding.srcNElements = s at hplace
  have hexec : (BindingCall.bind req).exec state = some
      (g₂, addBinding state.binding (req.src src) s
        (.longAddr ref req.dstEndpoint), .ok) := by
    rw [BindingCall.exec, zbApsmeBindRequest, hsrc]
    simp only [bind_eq_bind, bind_some, hs]
    rw [if_pos ⟨hplace, hroom⟩, hdst]
    rfl
  have hplace' := apsFindSrcRef_getD hs
  have hpairs : (addBinding state.binding (req.src src) s
      (.longAddr ref req.dstEndpoint)).pairs =
        (req.src src, .longAddr ref req.dstEndpoint) ::ₘ state.binding.pairs :=
    addBinding_pairs hwf hplace'
  have hkeeps' := (keepsKnown_zbAddressByIeee hsrc).trans hkeeps
  refine ⟨_, _, hexec, hwf.addBinding hplace' hplace hroom, ?_, ?_⟩
  · refine ⟨src, hkeeps _ _ (ieeeRef_of_zbAddressByIeee hsrc), ref, href, ?_⟩
    rw [hpairs]
    exact Multiset.mem_cons_self ..
  · intro other hbound
    refine hbound.mono hkeeps' ?_
    rw [hpairs]
    exact Multiset.subset_cons ..

theorem exec_unbind
    (hcan : state.CanUnbind req) (hsafe : (BindingCall.unbind req).Safe state) :
    ∃ addr binding status,
      (BindingCall.unbind req).exec state = some (addr, binding, status) ∧
      binding.WellFormed ∧ Cleared ⟨addr, binding⟩ req ∧
      (∀ other, state.Cleared other → Cleared ⟨addr, binding⟩ other) ∧
      (state.Tells req → (status = .invalidBinding ↔ ¬state.Bound req)) := by
  obtain ⟨src, hsrc, hpair⟩ := hcan
  have hlook := zbAddressByIeee_of_ieeeRef hsrc false
  have hmark := sameTable_markClock state.addr src
  cases hfind : apsFindSrcRef state.binding (req.src src) with
  | none =>
    have habsent := not_mem_pairs_of_find hwf hfind
    have hexec : (BindingCall.unbind req).exec state =
        some (state.addr.markClock src, state.binding, .invalidBinding) := by
      rw [BindingCall.exec, zbApsmeUnbindRequest, hlook]
      simp only [bind_eq_bind, bind_some, hfind]
    refine ⟨_, _, _, hexec, hwf, ?_, ?_, fun _ => ?_⟩
    · exact ⟨src, hmark.keepsKnown _ _ hsrc, .inr habsent⟩
    · exact fun other hcleared => hcleared.mono hmark.keepsKnown (Multiset.Subset.refl _)
    · refine iff_of_true rfl ?_
      rintro ⟨src', hsrc', dst, -, hmem⟩
      obtain rfl := some.inj (hsrc.symm.trans hsrc')
      exact habsent _ hmem
  | some s =>
    obtain ⟨pair, hnamed⟩ := hpair s hfind
    obtain ⟨g₁, src', g₂, dst, hsrc', hdst, rfl⟩ := exists_of_namedPair hnamed
    rw [hlook] at hsrc'
    obtain ⟨rfl, hret⟩ := some_pair_inj hsrc'
    obtain rfl := Except.ok.inj hret
    obtain ⟨ref, rfl, href, hkeeps⟩ := bindingDst_longAddr hmode hdst
    obtain ⟨binding, hremove, hwf', heffect⟩ :=
      (removeBinding_correct_iff hwf hnamed hfind).mpr hsafe
    have hexec : (BindingCall.unbind req).exec state =
        some (g₂, binding, .ok) := by
      rw [BindingCall.exec, zbApsmeUnbindRequest, hlook]
      simp only [bind_eq_bind, bind_some, hfind, hdst, hremove]
      rfl
    have hpairs := heffect.removed _ hnamed
    have hkeeps' := hmark.keepsKnown.trans hkeeps
    refine ⟨_, _, _, hexec, hwf', ?_, ?_, fun htells => ?_⟩
    · refine ⟨src, hkeeps' _ _ hsrc, .inl ⟨ref, href, ?_⟩⟩
      rw [hpairs, Multiset.mem_filter]
      exact fun hmem => hmem.2 rfl
    · intro other hcleared
      refine hcleared.mono hkeeps' ?_
      rw [hpairs]
      exact Multiset.filter_subset ..
    · exact iff_of_false (by simp) (not_not.mpr (htells src hsrc s hfind))

theorem exec_settled {bind : Bool} (hcan : state.Can req bind) : ∃ addr binding status,
      (if bind then BindingCall.bind req else .unbind req).exec state =
        some (addr, binding, status) ∧
      binding.WellFormed ∧ Settled ⟨addr, binding⟩ req bind ∧
      ∀ other, state.Settled other bind →
        Settled ⟨addr, binding⟩ other bind := by
  cases bind with
  | true =>
    obtain ⟨addr, binding, hexec, hwf', hbound, hothers⟩ := exec_bind hwf hmode hcan
    exact ⟨addr, binding, .ok, hexec, hwf', hbound, hothers⟩
  | false =>
    obtain ⟨addr, binding, status, hexec, hwf', hcleared, hothers, -⟩ :=
      exec_unbind hwf hmode hcan.1 hcan.2
    exact ⟨addr, binding, status, hexec, hwf', hcleared, hothers⟩

end

section

variable (hsame : SameTable state.addr next.addr) (hbinding : next.binding = state.binding)

include hsame hbinding

theorem bound_of_sameTable : next.Bound req ↔ state.Bound req := by
  rw [BindingState.Bound, BindingState.Bound, hsame.ieeeRef_eq, hsame.ieeeRef_eq, hbinding]

theorem settled_of_sameTable {bind : Bool}
    (hsettled : state.Settled req bind) : next.Settled req bind := by
  cases bind with
  | true => exact (bound_of_sameTable hsame hbinding).mpr hsettled
  | false =>
    exact Cleared.mono hsettled hsame.keepsKnown (hbinding ▸ Multiset.Subset.refl _)

end

end Requests

end Zboss
