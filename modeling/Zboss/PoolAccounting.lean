import Zboss.BufferConservation

/-!
# Accounting of the pool

The free list and the two counts account for the whole pool, and a callback
waits for a buffer only while its half of the pool is allocated.  Buffers which
are given back while the receiver needs one are not passed on; when the
receiver is done, callbacks may still wait for them.
-/

namespace Zboss

open Function Option LinkedChain RingBuffer TransitionSystem

def HalfAllocated (g : BufGlobals) (isIn : Bool) : Prop :=
  (g.bufQueue isIn).head ≠ none → g.bufsAllocated isIn = bufsLimit

instance (g : BufGlobals) (isIn : Bool) : Decidable (HalfAllocated g isIn) :=
  inferInstanceAs (Decidable (_ → _))

structure BufState.Accounted (state : BufState) : Prop where
  freeList : ∃ free, Chain state.g.bufNext state.g.head free ∧ free.Nodup ∧
    free.length + state.g.bufsAllocated false + state.g.bufsAllocated true =
      iobufPoolSize
  limit : ∀ isIn, state.g.bufsAllocated isIn ≤ iobufPoolSize / 2
  waiting : state.g.rxNeedBuf = false → ∀ isIn, HalfAllocated state.g isIn

def BufCall.Settled (state : BufState) : BufCall → Prop
  | .macReceived => state.receiving = true → HalfAllocated state.g true
  | _ => True

instance BufCall.decidableSettled (state : BufState) (call : BufCall) :
    Decidable (call.Settled state) := by
  unfold BufCall.Settled
  split <;> infer_instance

section Steps

variable {g g' : BufGlobals} {free : List ℕ} {waiting : Bool → List ℕ}
  {spare : List ℕ} {dir isIn : Bool}

section

variable (hrep : PoolRep g free waiting spare)

include hrep

theorem PoolRep.halfAllocated_iff (isIn : Bool) : HalfAllocated g isIn ↔
      (waiting isIn ≠ [] → g.bufsAllocated isIn = bufsLimit) := by
  rw [HalfAllocated, hrep.head_ne_none]

theorem HalfAllocated.update {free' : List ℕ} {spare' : List ℕ}
    (hrep' : PoolRep g' free' waiting spare')
    (hroom : g.bufsAllocated isIn < bufsLimit)
    (hcount : g'.bufsAllocated = update g.bufsAllocated isIn (g.bufsAllocated isIn + 1))
    (hhalf : HalfAllocated g dir) :
    HalfAllocated g' dir := by
  rw [hrep.halfAllocated_iff] at hhalf
  rw [hrep'.halfAllocated_iff]
  intro hwaiting
  have hfull := hhalf hwaiting
  rw [hcount]
  by_cases hdir : dir = isIn
  · rw [hdir] at hfull
    omega
  · rw [update_of_ne hdir]
    exact hfull

theorem PoolRep.halfAllocated_zbGetBuf {got : Option ℕ}
    (hget : Zboss.zbGetBuf g isIn = some (g', got)) (dir : Bool) :
    g'.rxNeedBuf = g.rxNeedBuf ∧ (HalfAllocated g dir → HalfAllocated g' dir) := by
  rcases hrep.zbGetBuf isIn with ⟨_, hnone⟩ | ⟨buf, rest, _, hroom, hsome, hrep'⟩
  · rw [hnone, some.injEq, Prod.mk.injEq] at hget
    obtain ⟨rfl, _⟩ := hget
    exact ⟨rfl, id⟩
  · rw [hsome, some.injEq, Prod.mk.injEq] at hget
    obtain ⟨rfl, _⟩ := hget
    exact ⟨rfl, .update hrep hrep' hroom rfl⟩

theorem PoolRep.halfAllocated_zbGetBufDelayed {callback : ℕ} {ret : Except RetError Unit}
    (hget : Zboss.zbGetBufDelayed g callback isIn = some (g', ret))
    (dir : Bool) :
    g'.rxNeedBuf = g.rxNeedBuf ∧ (HalfAllocated g dir → HalfAllocated g' dir) := by
  rcases hrep.zbGetBufDelayed callback isIn with
    ⟨buf, rest, g₁, ret', _, hroom, hsome, hrep', hcount, _, hrx⟩ |
    ⟨ent, rest, g₁, _, hfull, hsome, hrep', hcount, _, hrx⟩ | ⟨_, hsome⟩
  · rw [hsome, some.injEq, Prod.mk.injEq] at hget
    obtain ⟨rfl, _⟩ := hget
    exact ⟨hrx, .update hrep hrep' hroom hcount⟩
  · rw [hsome, some.injEq, Prod.mk.injEq] at hget
    obtain ⟨rfl, _⟩ := hget
    refine ⟨hrx, ?_⟩
    rw [hrep.halfAllocated_iff, hrep'.halfAllocated_iff, hcount]
    intro hhalf hwaiting
    by_cases hdir : dir = isIn
    · rw [hdir]
      exact hfull
    · rw [update_of_ne hdir] at hwaiting
      exact hhalf hwaiting
  · rw [hsome, some.injEq, Prod.mk.injEq] at hget
    obtain ⟨rfl, _⟩ := hget
    exact ⟨rfl, id⟩

theorem PoolRep.halfAllocated_zbFreeBuf {buf : ℕ} (hout : buf ∉ free)
    (hbuf : buf < iobufPoolSize) (hfree : Zboss.zbFreeBuf g buf = some g')
    (dir : Bool) :
    g'.rxNeedBuf = g.rxNeedBuf ∧ (¬ (dir = true ∧ g.rxNeedBuf = true) →
        HalfAllocated g dir → HalfAllocated g' dir) := by
  rcases hrep.zbFreeBuf hout hbuf with
    ⟨hstays, g₁, hsome, hrep', hcount, _, hrx⟩ |
    ⟨_, ent, rest, g₁, hwaiting, hsome, hrep', hcount, _, hrx⟩
  · rw [hsome, some.injEq] at hfree
    subst hfree
    refine ⟨hrx, ?_⟩
    rw [hrep.halfAllocated_iff, hrep'.halfAllocated_iff, hcount]
    intro hdir hhalf hnonempty
    by_cases heq : dir = g.isInBuf buf
    · rcases hstays with ⟨hin, hneeded⟩ | hnil
      · exact absurd ⟨heq.trans hin, hneeded⟩ hdir
      · rw [← heq] at hnil
        exact absurd hnil hnonempty
    · rw [update_of_ne heq]
      exact hhalf hnonempty
  · rw [hsome, some.injEq] at hfree
    subst hfree
    refine ⟨hrx, ?_⟩
    rw [hrep.halfAllocated_iff, hrep'.halfAllocated_iff, hcount]
    intro _ hhalf hnonempty
    apply hhalf
    by_cases heq : dir = g.isInBuf buf
    · rw [heq, hwaiting]
      exact List.cons_ne_nil ent rest
    · rwa [update_of_ne heq] at hnonempty

end

end Steps

section Calls

variable {state next : BufState}

def BufState.Waits (state : BufState) (dir : Bool) : Prop :=
  ¬ (dir = true ∧ state.g.rxNeedBuf = true) → HalfAllocated state.g dir

theorem BufState.Waits.apply {call : BufCall} {dir : Bool} (hwaits : state.Waits dir)
    (hsound : state.Sound) (happly : call.apply state = some next)
    (hsettled : dir = true → call.Settled state) :
    next.Waits dir := by
  obtain ⟨free, waiting, spare, hinvariant⟩ := hsound
  have hrep := hinvariant.rep
  cases call with
  | getBuf isIn =>
    obtain ⟨⟨g, got⟩, hget, rfl⟩ := map_eq_some_iff.mp happly
    obtain ⟨hrx, hhalf⟩ := hrep.halfAllocated_zbGetBuf hget dir
    intro hdir
    rw [hrx] at hdir
    exact hhalf (hwaits hdir)
  | getBufDelayed callback isIn =>
    obtain ⟨⟨g, ret⟩, hget, rfl⟩ := map_eq_some_iff.mp happly
    obtain ⟨hrx, hhalf⟩ := hrep.halfAllocated_zbGetBufDelayed hget dir
    intro hdir
    rw [hrx] at hdir
    exact hhalf (hwaits hdir)
  | freeBuf buf =>
    rw [BufCall.apply] at happly
    split at happly
    · rename_i howned
      obtain ⟨g, hfree, rfl⟩ := map_eq_some_iff.mp happly
      obtain ⟨hout, hbuf⟩ := hinvariant.owned_not_free howned
      obtain ⟨hrx, hhalf⟩ := hrep.halfAllocated_zbFreeBuf hout hbuf hfree dir
      intro hdir
      rw [hrx] at hdir
      exact hhalf hdir (hwaits hdir)
    · contradiction
  | scheduleCallback func param =>
    rw [BufCall.apply] at happly
    split at happly
    · by_cases hfull : schedulerQSize ≤ state.g.cbQ.written
      · rw [zbScheduleCallback, if_pos hfull] at happly
        obtain rfl := some.inj happly
        exact hwaits
      · rw [zbScheduleCallback, if_neg hfull] at happly
        obtain rfl := some.inj happly
        exact hwaits
    · contradiction
  | dispatch =>
    rw [BufCall.apply, BufState.dispatch] at happly
    split at happly
    · obtain rfl := some.inj happly
      exact hwaits
    · contradiction
  | dispatchEnd =>
    rw [BufCall.apply] at happly
    split at happly
    · obtain rfl := some.inj happly
      exact hwaits
    · contradiction
  | macReceive =>
    rw [BufCall.apply, BufState.macReceive] at happly
    split at happly
    · contradiction
    · obtain ⟨⟨g, got⟩, hget, rfl⟩ := map_eq_some_iff.mp happly
      obtain ⟨hrx, hhalf⟩ := hrep.halfAllocated_zbGetBuf hget dir
      cases got with
      | some buf =>
        intro hdir
        dsimp only at hdir
        rw [hrx] at hdir
        exact hhalf (hwaits hdir)
      | none =>
        intro hdir
        have hout : dir ≠ true := fun hin => hdir ⟨hin, rfl⟩
        exact hhalf (hwaits fun hin => hout hin.1)
  | macReceived =>
    rw [BufCall.apply] at happly
    split at happly
    · rename_i hreceiving
      obtain rfl := some.inj happly
      intro _
      by_cases hin : dir = true
      · rw [hin]
        exact hsettled hin hreceiving
      · exact hwaits fun h => hin h.1
    · contradiction

end Calls

structure BufState.Supported (state : BufState) : Prop where
  sound : state.Sound
  out : state.Waits false

theorem BufState.Supported.accounted_iff
    {state : BufState} (hsupported : state.Supported) :
    state.Accounted ↔ state.Waits true := by
  obtain ⟨⟨free, waiting, spare, hinvariant⟩, hout⟩ := hsupported
  constructor
  · intro haccounted hdir
    apply haccounted.waiting
    simpa using hdir
  · intro hwaits
    refine ⟨⟨free, hinvariant.rep.chain, hinvariant.rep.chain.nodup,
      hinvariant.rep.card⟩, hinvariant.rep.limit, ?_⟩
    intro hrx isIn
    have hidle : ¬ (isIn = true ∧ state.g.rxNeedBuf = true) := by simp [hrx]
    cases isIn with
    | false => exact hout hidle
    | true => exact hwaits hidle

theorem BufState.Supported.apply
    {state next : BufState} {call : BufCall} (hsupported : state.Supported)
    (happly : call.apply state = some next) : next.Supported :=
  ⟨hsupported.sound.apply happly, hsupported.out.apply hsupported.sound happly
      fun hfalse => absurd hfalse Bool.false_ne_true⟩

theorem everyState_accounted_iff {state : BufState} (haccounted : state.Accounted)
    (hsupported : state.Supported) (calls : List BufCall) :
    EveryState BufCall.apply BufState.Accounted state calls ↔
      AlongRun BufCall.apply (fun state call => call.Settled state) state
        calls := by
  refine @everyState_iff_alongRun _ _ _ _ _ BufState.Supported ?_ ?_ _ _
    haccounted hsupported
  · intro state call haccounted hsupported
    constructor
    · intro hnext
      cases call with
      | macReceived =>
        intro hreceiving
        exact (hnext _ (if_pos hreceiving)).waiting rfl true
      | _ => exact trivial
    · intro hsettled next happly
      rw [(hsupported.apply happly).accounted_iff]
      exact (hsupported.accounted_iff.mp haccounted).apply hsupported.sound
        happly fun _ => hsettled
  · intro state call next _ hsupported _ happly
    exact hsupported.apply happly

theorem supported_start : BufState.start.Supported := by
  refine ⟨sound_start, fun _ => ?_⟩
  rw [poolRep_start.halfAllocated_iff]
  intro hne
  exact absurd rfl hne

theorem accounted_start : BufState.start.Accounted := by
  rw [supported_start.accounted_iff]
  intro _
  rw [poolRep_start.halfAllocated_iff]
  intro hne
  exact absurd rfl hne

/-- In every run from the initialization, the pool is accounted for in all
states exactly if no callback is left waiting for a free buffer when the
receiver is done. -/
theorem accounted_iff_of_run (calls : List BufCall) :
    EveryState BufCall.apply BufState.Accounted .start calls ↔
      AlongRun BufCall.apply (fun state call => call.Settled state) .start
        calls :=
  everyState_accounted_iff accounted_start supported_start calls

/-- All buffers for input are allocated, a callback waits, and the receiver
needs a buffer.  Two buffers are given back, of which it takes one. -/
def receiverServed : List BufCall :=
  List.replicate 8 (.getBuf true) ++
    [.getBufDelayed 1 true, .macReceive, .freeBuf 0, .freeBuf 1, .macReceive, .macReceived]

theorem not_accounted_of_receiverServed :
    ¬ EveryState BufCall.apply BufState.Accounted .start receiverServed := by
  rw [everyState_accounted_iff accounted_start supported_start]
  decide +kernel

end Zboss
