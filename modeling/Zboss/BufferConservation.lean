import Zboss.BufferPoolInvariant
import Zboss.TransitionSystem
import Mathlib.Algebra.Order.Group.Multiset
import Mathlib.Tactic.Abel

/-!
# Conservation of buffers

Every buffer is free, owned by running code, or the parameter of a queued
callback.  A buffer is lost when it is to be passed to a callback and the ring
is full: the overflow is ignored, or returned when the buffer is allocated
already.
-/

namespace Zboss

open Option LinkedChain RingBuffer TransitionSystem

def BufState.queuedEnts (state : BufState) : List CbQEnt :=
  if state.dispatching then (state.g.cbQ.contents schedulerQSize).tail
  else state.g.cbQ.contents schedulerQSize

def BufState.queuedBufs (state : BufState) : List ℕ :=
  state.queuedEnts.filterMap CbQEnt.param

def BufState.Conserved (state : BufState) : Prop :=
  ∃ free, Chain state.g.bufNext state.g.head free ∧
    (free : Multiset ℕ) + state.owned + state.queuedBufs = Multiset.range iobufPoolSize

def BufCall.Safe (state : BufState) : BufCall → Prop
  | .getBufDelayed _ isIn =>
      state.g.bufsAllocated isIn < bufsLimit → state.g.cbQ.written < schedulerQSize
  | .freeBuf buf =>
      buf ∈ state.owned → (state.g.bufQueue (state.g.isInBuf buf)).head ≠ none →
          ¬ (state.g.isInBuf buf = true ∧ state.g.rxNeedBuf = true) →
            state.g.cbQ.written < schedulerQSize
  | _ => True

instance BufCall.decidableSafe (state : BufState) (call : BufCall) :
    Decidable (call.Safe state) := by
  unfold BufCall.Safe
  split <;> infer_instance

structure BufInvariant (state : BufState) (free : List ℕ)
    (waiting : Bool → List ℕ) (spare : List ℕ) : Prop where
  rep : PoolRep state.g free waiting spare
  places : (free : Multiset ℕ) + state.owned + state.queuedBufs ≤
    Multiset.range iobufPoolSize
  dispatching : state.dispatching = true → 0 < state.g.cbQ.written

section Places

variable {state : BufState} {free : List ℕ} {waiting : Bool → List ℕ} {spare : List ℕ}

theorem BufInvariant.owned_not_free
    (hinvariant : BufInvariant state free waiting spare) {buf : ℕ}
    (howned : buf ∈ state.owned) :
    buf ∉ free ∧ buf < iobufPoolSize := by
  have hmem : buf ∈ (free : Multiset ℕ) + state.owned + state.queuedBufs := by
    rw [Multiset.mem_add, Multiset.mem_add]
    exact Or.inl (Or.inr howned)
  refine ⟨?_, Multiset.mem_range.mp (Multiset.mem_of_le hinvariant.places hmem)⟩
  intro hfree
  have hnodup := Multiset.nodup_of_le
    (Multiset.le_add_right _ _ |>.trans hinvariant.places)
    (Multiset.nodup_range iobufPoolSize)
  exact Multiset.disjoint_left.mp (Multiset.nodup_add.mp hnodup).2.2
    (Multiset.mem_coe.mpr hfree) howned

theorem BufInvariant.conserved_iff (hinvariant : BufInvariant state free waiting spare) :
    state.Conserved ↔ (free : Multiset ℕ) + state.owned + state.queuedBufs =
        Multiset.range iobufPoolSize := by
  constructor
  · rintro ⟨other, hchain, hplaces⟩
    rw [hinvariant.rep.chain.unique hchain]
    exact hplaces
  · intro hplaces
    exact ⟨free, hinvariant.rep.chain, hplaces⟩

theorem queuedBufs_ringPut (hring : state.g.cbQ.Valid schedulerQSize)
    (hdispatching : state.dispatching = true → 0 < state.g.cbQ.written)
    {g : BufGlobals} {func : ℕ} {param : Option ℕ} {owned : Multiset ℕ}
    (hput : g.cbQ = ringPut state.g.cbQ func param) :
    BufState.queuedBufs { state with g := g, owned := owned } =
      if state.g.cbQ.written < schedulerQSize then state.queuedBufs ++ param.toList
      else state.queuedBufs := by
  unfold BufState.queuedBufs BufState.queuedEnts
  dsimp only
  rw [hput, ringPut]
  by_cases hroom : state.g.cbQ.written < schedulerQSize
  · rw [if_neg (Nat.not_le_of_lt hroom), if_pos hroom, hring.contents_put hroom]
    have hparam : List.filterMap CbQEnt.param [⟨func, param⟩] = param.toList := by
      cases param <;> rfl
    by_cases hrunning : state.dispatching = true
    · rw [if_pos hrunning, if_pos hrunning, List.tail_append_of_ne_nil,
        List.filterMap_append, hparam]
      have hlength := hdispatching hrunning
      rw [← @RingBuf.contents_length _ schedulerQSize] at hlength
      exact List.ne_nil_of_length_pos hlength
    · rw [if_neg hrunning, if_neg hrunning, List.filterMap_append, hparam]
  · rw [if_pos (Nat.le_of_not_lt hroom), if_neg hroom]

theorem ringPut_written (ring : RingBuf CbQEnt) (func : ℕ) (param : Option ℕ) :
    ring.written ≤ (ringPut ring func param).written := by
  unfold ringPut
  split
  · exact Nat.le_refl _
  · exact Nat.le_succ _

end Places

def KeepsPlaces (state next : BufState) (free : List ℕ) (safe : Prop) :
    Prop :=
  ∃ free' waiting' spare' lost, PoolRep next.g free' waiting' spare' ∧
    (next.dispatching = true → 0 < next.g.cbQ.written) ∧
    (free' : Multiset ℕ) + next.owned + next.queuedBufs + lost =
      (free : Multiset ℕ) + state.owned + state.queuedBufs ∧
    (lost = 0 ↔ safe)

section Steps

variable {state next : BufState} {free : List ℕ} {waiting : Bool → List ℕ} {spare : List ℕ}

theorem BufInvariant.getBuf
    (hinvariant : BufInvariant state free waiting spare) {isIn : Bool}
    {g : BufGlobals} {got : Option ℕ}
    (hget : zbGetBuf state.g isIn = some (g, got)) (receiving : Bool) :
    KeepsPlaces state
      { state with
        g := g, owned := state.owned + got.toList, receiving := receiving }
      free True := by
  rcases hinvariant.rep.zbGetBuf isIn with ⟨_, hnone⟩ | ⟨buf, rest, rfl, _, hsome, hrep⟩
  · rw [hnone, some.injEq, Prod.mk.injEq] at hget
    obtain ⟨rfl, rfl⟩ := hget
    refine ⟨free, waiting, spare, 0, hinvariant.rep, hinvariant.dispatching, ?_, by simp⟩
    simp [BufState.queuedBufs, BufState.queuedEnts]
  · rw [hsome, some.injEq, Prod.mk.injEq] at hget
    obtain ⟨rfl, rfl⟩ := hget
    refine ⟨rest, waiting, spare, 0, hrep, hinvariant.dispatching, ?_, by simp⟩
    have hqueued : BufState.queuedBufs
        { state with
          g := popFreeBuf state.g isIn buf
          owned := state.owned + (some buf).toList
          receiving := receiving } = state.queuedBufs := rfl
    rw [hqueued, ← Multiset.cons_coe, ← Multiset.singleton_add,
      toList_some, Multiset.coe_singleton]
    dsimp only
    abel

theorem BufInvariant.getBufDelayed
    (hinvariant : BufInvariant state free waiting spare) {callback : ℕ}
    {isIn : Bool} {g : BufGlobals} {ret : Except RetError Unit}
    (hget : zbGetBufDelayed state.g callback isIn = some (g, ret)) :
    KeepsPlaces state { state with g := g } free
      ((BufCall.getBufDelayed callback isIn).Safe state) := by
  rw [BufCall.Safe]
  rcases hinvariant.rep.zbGetBufDelayed callback isIn with
    ⟨buf, rest, g', ret', rfl, hlt, hsome, hrep, _, hput, _⟩ |
    ⟨ent, rest, g', rfl, hfull, hsome, hrep, _, hring, _⟩ | ⟨hfull, hsome⟩
  · rw [hsome, some.injEq, Prod.mk.injEq] at hget
    obtain ⟨rfl, _⟩ := hget
    have hqueued := @queuedBufs_ringPut state hinvariant.rep.ring
      hinvariant.dispatching g' _ _ state.owned hput
    have hwritten : state.dispatching = true → 0 < g'.cbQ.written := by
      intro hrunning
      rw [hput]
      exact Nat.lt_of_lt_of_le (hinvariant.dispatching hrunning) (ringPut_written _ _ _)
    by_cases hroom : state.g.cbQ.written < schedulerQSize
    · rw [if_pos hroom] at hqueued
      refine ⟨rest, waiting, spare, 0, hrep, hwritten, ?_, iff_of_true rfl fun _ => hroom⟩
      rw [hqueued, ← Multiset.cons_coe, ← Multiset.coe_add,
        ← Multiset.singleton_add, toList_some, Multiset.coe_singleton]
      dsimp only
      abel
    · rw [if_neg hroom] at hqueued
      refine ⟨rest, waiting, spare, {buf}, hrep, hwritten, ?_,
        iff_of_false (Multiset.singleton_ne_zero buf) fun hsafe => hroom (hsafe hlt)⟩
      rw [hqueued, ← Multiset.cons_coe, ← Multiset.singleton_add]
      dsimp only
      abel
  · rw [hsome, some.injEq, Prod.mk.injEq] at hget
    obtain ⟨rfl, _⟩ := hget
    refine ⟨free, _, rest, 0, hrep, ?_, ?_, ?_⟩
    · rw [hring]
      exact hinvariant.dispatching
    · unfold BufState.queuedBufs BufState.queuedEnts
      dsimp only
      rw [hring, add_zero]
    · exact iff_of_true rfl fun hlt => absurd hfull (Nat.ne_of_lt hlt)
  · rw [hsome, some.injEq, Prod.mk.injEq] at hget
    obtain ⟨rfl, _⟩ := hget
    refine ⟨free, waiting, spare, 0, hinvariant.rep, hinvariant.dispatching, ?_, ?_⟩
    · rw [add_zero]
    · exact iff_of_true rfl fun hlt => absurd hfull (Nat.ne_of_lt hlt)

theorem PoolRep.head_ne_none
    {g : BufGlobals} (hrep : PoolRep g free waiting spare) (isIn : Bool) :
    (g.bufQueue isIn).head ≠ none ↔ waiting isIn ≠ [] := by
  have hchain := (hrep.queues isIn).chain
  rw [not_iff_not]
  constructor
  · intro hhead
    rw [hhead, chain_none] at hchain
    exact hchain
  · intro hnil
    rw [hnil] at hchain
    exact hchain

section

variable (hinvariant : BufInvariant state free waiting spare)

include hinvariant

theorem BufInvariant.freeBuf {buf : ℕ} (howned : buf ∈ state.owned) {g : BufGlobals}
    (hfree : zbFreeBuf state.g buf = some g) :
    KeepsPlaces state { state with g := g, owned := state.owned.erase buf }
      free ((BufCall.freeBuf buf).Safe state) := by
  rw [BufCall.Safe, hinvariant.rep.head_ne_none]
  obtain ⟨hout, hbuf⟩ := hinvariant.owned_not_free howned
  have herase := Multiset.cons_erase howned
  rw [← Multiset.singleton_add] at herase
  rcases hinvariant.rep.zbFreeBuf hout hbuf with
    ⟨hstays, g', hsome, hrep, _, hring, _⟩ |
    ⟨hpass, ent, rest, g', hwaiting, hsome, hrep, _, hput, _⟩
  · rw [hsome, some.injEq] at hfree
    subst hfree
    refine ⟨buf :: free, waiting, spare, 0, hrep, ?_, ?_, ?_⟩
    · rw [hring]
      exact hinvariant.dispatching
    · unfold BufState.queuedBufs BufState.queuedEnts
      dsimp only
      rw [hring, ← Multiset.cons_coe, ← Multiset.singleton_add]
      conv_rhs => rw [← herase]
      abel
    · refine iff_of_true rfl fun _ hnonempty hneeded => ?_
      rcases hstays with hneeded' | hnil
      · exact absurd hneeded' hneeded
      · exact absurd hnil hnonempty
  · rw [hsome, some.injEq] at hfree
    subst hfree
    have hqueued := @queuedBufs_ringPut state hinvariant.rep.ring
      hinvariant.dispatching g' _ _ (state.owned.erase buf) hput
    have hwritten : state.dispatching = true → 0 < g'.cbQ.written := by
      intro hrunning
      rw [hput]
      exact Nat.lt_of_lt_of_le (hinvariant.dispatching hrunning) (ringPut_written _ _ _)
    by_cases hroom : state.g.cbQ.written < schedulerQSize
    · rw [if_pos hroom] at hqueued
      refine ⟨free, _, _, 0, hrep, hwritten, ?_, iff_of_true rfl fun _ _ _ => hroom⟩
      rw [hqueued, ← Multiset.coe_add, toList_some, Multiset.coe_singleton]
      conv_rhs => rw [← herase]
      dsimp only
      abel
    · rw [if_neg hroom] at hqueued
      refine ⟨free, _, _, {buf}, hrep, hwritten, ?_,
        iff_of_false (Multiset.singleton_ne_zero buf) fun hsafe => ?_⟩
      · rw [hqueued]
        conv_rhs => rw [← herase]
        dsimp only
        abel
      · apply hroom (hsafe howned _ hpass)
        rw [hwaiting]
        exact List.cons_ne_nil ent rest

theorem BufInvariant.scheduleCallback {func : ℕ} {param : Option ℕ}
    (happly : (BufCall.scheduleCallback func param).apply state = some next) :
    KeepsPlaces state next free True := by
  rw [BufCall.apply] at happly
  split at happly
  · rename_i howned
    have hrep := hinvariant.rep.zbScheduleCallback func param
    by_cases hfull : schedulerQSize ≤ state.g.cbQ.written
    · rw [zbScheduleCallback, if_pos hfull] at happly hrep
      obtain rfl := some.inj happly
      exact ⟨free, waiting, spare, 0, hrep, hinvariant.dispatching,
        by rw [add_zero], by simp⟩
    · rw [zbScheduleCallback, if_neg hfull] at happly hrep
      obtain rfl := some.inj happly
      have hput : state.g.cbQ.put schedulerQSize ⟨func, param⟩ =
          ringPut state.g.cbQ func param := by
        rw [ringPut, if_neg hfull]
      have hqueued := @queuedBufs_ringPut state hinvariant.rep.ring hinvariant.dispatching
        { state.g with cbQ := state.g.cbQ.put schedulerQSize ⟨func, param⟩ }
        func param (state.owned - param.toList) hput
      rw [if_pos (Nat.lt_of_not_le hfull)] at hqueued
      refine ⟨free, waiting, spare, 0, hrep, fun _ => Nat.succ_pos _, ?_, by simp⟩
      rw [hqueued, ← Multiset.coe_add]
      dsimp only
      conv_rhs => rw [← Multiset.sub_add_cancel howned]
      generalize state.owned - (param.toList : Multiset ℕ) = kept
      abel
  · contradiction

theorem BufInvariant.dispatch (happly : state.dispatch = some next) :
    KeepsPlaces state next free True := by
  rw [BufState.dispatch] at happly
  split at happly
  · rename_i ent hidle hpeek
    obtain rfl := some.inj happly
    have hpos : 0 < state.g.cbQ.written := by
      rw [RingBuf.peek] at hpeek
      split at hpeek
      · contradiction
      · rename_i hne
        exact Nat.pos_of_ne_zero hne
    refine ⟨free, waiting, spare, 0, hinvariant.rep, fun _ => hpos, ?_, by simp⟩
    rw [RingBuf.peek_eq_head? hinvariant.rep.ring] at hpeek
    obtain ⟨rest, hcontents⟩ := List.head?_eq_some_iff.mp hpeek
    have hbefore : state.queuedBufs = ent.param.toList ++ rest.filterMap CbQEnt.param := by
      rw [BufState.queuedBufs, BufState.queuedEnts, hidle,
        if_neg Bool.false_ne_true, hcontents, List.filterMap_cons]
      cases ent.param <;> rfl
    have hafter : BufState.queuedBufs
        { state with
          owned := state.owned + ent.param.toList
          dispatching := true } = rest.filterMap CbQEnt.param := by
      rw [BufState.queuedBufs, BufState.queuedEnts, if_pos rfl, hcontents, List.tail_cons]
    rw [hbefore, hafter, ← Multiset.coe_add]
    dsimp only
    abel
  · contradiction

theorem BufInvariant.dispatchEnd (happly : BufCall.dispatchEnd.apply state = some next) :
    KeepsPlaces state next free True := by
  rw [BufCall.apply] at happly
  split at happly
  · rename_i hrunning
    obtain rfl := some.inj happly
    have hpos := hinvariant.dispatching hrunning
    have hrep := hinvariant.rep
    refine ⟨free, waiting, spare, 0,
      ⟨hrep.chain, hrep.bound, hrep.count, hrep.limit, hrep.queues,
        hrep.spares, hrep.disjoint, hrep.unspare, hrep.ring.flushGet hpos⟩,
      fun hfalse => absurd hfalse Bool.false_ne_true, ?_, by simp⟩
    have hqueued : BufState.queuedBufs
        { state with
          g := { state.g with cbQ := state.g.cbQ.flushGet schedulerQSize }
          dispatching := false } = state.queuedBufs := by
      rw [BufState.queuedBufs, BufState.queuedBufs, BufState.queuedEnts,
        BufState.queuedEnts, if_neg Bool.false_ne_true, if_pos hrunning,
        RingBuf.contents_flushGet hpos]
    rw [hqueued, add_zero]
  · contradiction

theorem BufInvariant.setRxNeedBuf (rxNeedBuf receiving : Bool) : KeepsPlaces state
      { state with
        g := { state.g with rxNeedBuf := rxNeedBuf }
        receiving := receiving } free True := by
  have hrep := hinvariant.rep
  refine ⟨free, waiting, spare, 0,
    ⟨hrep.chain, hrep.bound, hrep.count, hrep.limit, hrep.queues,
      hrep.spares, hrep.disjoint, hrep.unspare, hrep.ring⟩,
    hinvariant.dispatching, ?_, by simp⟩
  rw [add_zero]
  rfl

theorem BufInvariant.macReceive (happly : state.macReceive = some next) :
    KeepsPlaces state next free True := by
  rw [BufState.macReceive] at happly
  split at happly
  · contradiction
  · obtain ⟨⟨g, got⟩, hget, rfl⟩ := map_eq_some_iff.mp happly
    cases got with
    | some buf =>
      have heffect := hinvariant.getBuf hget true
      rw [toList_some, Multiset.coe_singleton, add_comm state.owned,
        Multiset.singleton_add] at heffect
      exact heffect
    | none =>
      rcases hinvariant.rep.zbGetBuf true with ⟨_, hnone⟩ | ⟨buf, rest, _, _, hsome, _⟩
      · rw [hnone, some.injEq, Prod.mk.injEq] at hget
        obtain ⟨rfl, _⟩ := hget
        exact hinvariant.setRxNeedBuf true state.receiving
      · rw [hsome, some.injEq, Prod.mk.injEq] at hget
        exact absurd hget.2 (some_ne_none buf)

theorem BufInvariant.apply {call : BufCall} (happly : call.apply state = some next) :
    KeepsPlaces state next free (call.Safe state) := by
  cases call with
  | getBuf isIn =>
    obtain ⟨⟨g, got⟩, hget, rfl⟩ := map_eq_some_iff.mp happly
    exact hinvariant.getBuf hget state.receiving
  | getBufDelayed callback isIn =>
    obtain ⟨⟨g, ret⟩, hget, rfl⟩ := map_eq_some_iff.mp happly
    exact hinvariant.getBufDelayed hget
  | freeBuf buf =>
    rw [BufCall.apply] at happly
    split at happly
    · rename_i howned
      obtain ⟨g, hfree, rfl⟩ := map_eq_some_iff.mp happly
      exact hinvariant.freeBuf howned hfree
    · contradiction
  | scheduleCallback func param => exact hinvariant.scheduleCallback happly
  | dispatch => exact hinvariant.dispatch happly
  | dispatchEnd => exact hinvariant.dispatchEnd happly
  | macReceive => exact hinvariant.macReceive happly
  | macReceived =>
    rw [BufCall.apply] at happly
    split at happly
    · obtain rfl := some.inj happly
      exact hinvariant.setRxNeedBuf false false
    · contradiction

end

end Steps

def BufState.Sound (state : BufState) : Prop :=
  ∃ free waiting spare, BufInvariant state free waiting spare

theorem BufState.Sound.apply
    {state next : BufState} {call : BufCall} (hsound : state.Sound)
    (happly : call.apply state = some next) : next.Sound := by
  obtain ⟨free, waiting, spare, hinvariant⟩ := hsound
  obtain ⟨free', waiting', spare', lost, hrep, hdispatching, hplaces, _⟩ :=
    hinvariant.apply happly
  have hle := hinvariant.places
  rw [← hplaces] at hle
  exact ⟨free', waiting', spare', hrep,
    (Multiset.le_add_right _ lost).trans hle, hdispatching⟩

theorem BufState.Conserved.apply_iff
    {state next : BufState} {call : BufCall} (hconserved : state.Conserved)
    (hsound : state.Sound) (happly : call.apply state = some next) :
    next.Conserved ↔ call.Safe state := by
  obtain ⟨free, waiting, spare, hinvariant⟩ := hsound
  obtain ⟨free', waiting', spare', lost, hrep, hdispatching, hplaces, hlost⟩ :=
    hinvariant.apply happly
  have hbefore := hinvariant.conserved_iff.mp hconserved
  rw [hbefore] at hplaces
  have hinvariant' : BufInvariant next free' waiting' spare' :=
    ⟨hrep, hplaces ▸ Multiset.le_add_right _ lost, hdispatching⟩
  rw [hinvariant'.conserved_iff, ← hlost]
  constructor
  · intro hafter
    rw [hafter] at hplaces
    exact left_eq_add.mp hplaces.symm
  · intro hnothing
    rw [hnothing, add_zero] at hplaces
    exact hplaces

theorem BufState.Sound.returns_of_not_safe
    {state : BufState} {call : BufCall} (hsound : state.Sound)
    (hnotSafe : ¬ call.Safe state) :
    ∃ next, call.apply state = some next := by
  obtain ⟨free, waiting, spare, hinvariant⟩ := hsound
  cases call with
  | getBufDelayed callback isIn =>
    rw [BufCall.apply]
    rcases hinvariant.rep.zbGetBufDelayed callback isIn with
      ⟨_, _, g', ret, _, _, hsome, _⟩ | ⟨_, _, g', _, _, hsome, _⟩ |
      ⟨_, hsome⟩
    · exact ⟨_, by rw [hsome]; rfl⟩
    · exact ⟨_, by rw [hsome]; rfl⟩
    · exact ⟨_, by rw [hsome]; rfl⟩
  | freeBuf buf =>
    rw [BufCall.Safe] at hnotSafe
    by_cases howned : buf ∈ state.owned
    · obtain ⟨hout, hbuf⟩ := hinvariant.owned_not_free howned
      rw [BufCall.apply, if_pos howned]
      rcases hinvariant.rep.zbFreeBuf hout hbuf with
        ⟨_, g', hsome, _⟩ | ⟨_, _, _, g', _, hsome, _⟩
      · exact ⟨_, by rw [hsome]; rfl⟩
      · exact ⟨_, by rw [hsome]; rfl⟩
    · exact absurd (fun hin => absurd hin howned) hnotSafe
  | _ => exact absurd trivial hnotSafe

theorem cbQ_start : BufState.start.g.cbQ = BufGlobals.zeroed.cbQ := by
  have hothers := zbSchedInit_others .zeroed bufQSize
  change (zbInitBuffers (zbSchedInit .zeroed bufQSize)).cbQ = _
  rw [zbInitBuffers, hothers]
  split <;> rfl

theorem queuedBufs_start : BufState.start.queuedBufs = [] := by
  rw [BufState.queuedBufs, BufState.queuedEnts, cbQ_start]
  rfl

theorem conserved_start : BufState.start.Conserved := by
  refine ⟨_, poolRep_start.chain, ?_⟩
  rw [queuedBufs_start]
  rfl

theorem sound_start : BufState.start.Sound := by
  refine ⟨_, _, _, poolRep_start, ?_, ?_⟩
  · rw [queuedBufs_start]
    exact le_of_eq rfl
  · intro hfalse
    exact absurd hfalse Bool.false_ne_true

theorem everyState_conserved_iff
    {state : BufState} (hconserved : state.Conserved) (hsound : state.Sound)
    (calls : List BufCall) :
    EveryState BufCall.apply BufState.Conserved state calls ↔
      AlongRun BufCall.apply (fun state call => call.Safe state) state
        calls := by
  refine @everyState_iff_alongRun _ _ _ _ _ BufState.Sound ?_ ?_ _ _ hconserved hsound
  · intro state call hconserved hsound
    constructor
    · intro hnext
      by_contra hnotSafe
      obtain ⟨next, happly⟩ := hsound.returns_of_not_safe hnotSafe
      exact hnotSafe ((hconserved.apply_iff hsound happly).mp (hnext next happly))
    · intro hsafe next happly
      exact (hconserved.apply_iff hsound happly).mpr hsafe
  · intro state call next _ hsound _ happly
    exact hsound.apply happly

/-- In every run from the initialization, all buffers are in one place all the
time exactly if no buffer is to be passed to a callback while the ring is
full. -/
theorem conserved_iff_of_run (calls : List BufCall) :
    EveryState BufCall.apply BufState.Conserved .start calls ↔
      AlongRun BufCall.apply (fun state call => call.Safe state) .start
        calls :=
  everyState_conserved_iff conserved_start sound_start calls

/-- All buffers are passed to queued callbacks, and one more callback waits.
The first one frees its buffer, which goes to the waiting one while the ring is
still full. -/
def fullRing : List BufCall :=
  List.replicate 8 (.getBufDelayed 1 true) ++ List.replicate 8 (.getBufDelayed 2 false) ++
      [.getBufDelayed 3 true, .dispatch, .freeBuf 0]

theorem not_conserved_of_fullRing :
    ¬ EveryState BufCall.apply BufState.Conserved .start fullRing := by
  rw [everyState_conserved_iff conserved_start sound_start]
  decide +kernel

end Zboss
