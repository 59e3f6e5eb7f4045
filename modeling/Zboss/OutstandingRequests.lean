import Zboss.BufferConservation

/-!
# Outstanding requests for a buffer

How many calls of a callback are still to come, because it is queued or because it
waits for a buffer, and what each call of the pool does to this number.  A request
is refused, or dropped after it has waited, if there is no room for it.
-/

namespace Zboss

open Function Option List LinkedChain RingBuffer

def allWaiting (waiting : Bool → List ℕ) : List ℕ :=
  waiting false ++ waiting true

def callsOf (func : ℕ) (ents : List CbQEnt) : ℕ :=
  ents.countP fun ent => ent.func = func

def requestsOf (func : ℕ) (delayedFunc : ℕ → ℕ) (ents : List ℕ) : ℕ :=
  ents.countP fun ent => delayedFunc ent = func

def BufState.Outstanding (state : BufState) (func n : ℕ) : Prop :=
  ∃ waiting : Bool → List ℕ, (∀ isIn, (state.g.bufQueue isIn).Holds state.g.delayedNext
      (waiting isIn)) ∧
    n = callsOf func state.queuedEnts +
      requestsOf func state.g.delayedFunc (allWaiting waiting)

def BufState.Refuses (state : BufState) (isIn : Bool) : Prop :=
  if state.g.bufsAllocated isIn < bufsLimit then schedulerQSize ≤ state.g.cbQ.written
  else state.g.bufFreelist = none

instance (state : BufState) (isIn : Bool) : Decidable (state.Refuses isIn) := by
  unfold BufState.Refuses
  infer_instance

def BufState.Drops (state : BufState) (func buf : ℕ) : Prop :=
  schedulerQSize ≤ state.g.cbQ.written ∧
    ¬ (state.g.isInBuf buf = true ∧ state.g.rxNeedBuf = true) ∧
      ∃ ent ∈ (state.g.bufQueue (state.g.isInBuf buf)).head, state.g.delayedFunc ent = func

instance (state : BufState) (func buf : ℕ) :
    Decidable (state.Drops func buf) := by
  unfold BufState.Drops
  infer_instance

def BufCall.outstandingAfter (state : BufState) (func n : ℕ) : BufCall → ℕ
  | .getBufDelayed callback isIn =>
      if callback = func ∧ ¬ state.Refuses isIn then n + 1 else n
  | .freeBuf buf => if state.Drops func buf then n - 1 else n
  | .scheduleCallback callback _ =>
      if callback = func ∧ state.g.cbQ.written < schedulerQSize then n + 1
      else n
  | .dispatch => if ∃ ent ∈ state.g.cbQ.peek, ent.func = func then n - 1 else n
  | .getBuf _ | .dispatchEnd | .macReceive | .macReceived => n

section Counting

variable {func : ℕ} {delayedFunc : ℕ → ℕ} {waiting : Bool → List ℕ}
  {ent : ℕ} {rest : List ℕ} {isIn : Bool}

theorem callsOf_append_single (ents : List CbQEnt) (ent : CbQEnt) :
    callsOf func (ents ++ [ent]) =
      callsOf func ents + if ent.func = func then 1 else 0 := by
  rw [callsOf, callsOf, countP_append, countP_singleton]
  simp

theorem callsOf_cons (ent : CbQEnt) (ents : List CbQEnt) : callsOf func (ent :: ents) =
      callsOf func ents + if ent.func = func then 1 else 0 := by
  rw [callsOf, callsOf, countP_cons]
  simp

theorem requestsOf_cons (ent : ℕ) (ents : List ℕ) :
    requestsOf func delayedFunc (ent :: ents) = requestsOf func delayedFunc ents +
        if delayedFunc ent = func then 1 else 0 := by
  rw [requestsOf, requestsOf, countP_cons]
  simp

theorem requestsOf_perm (func : ℕ) (delayedFunc : ℕ → ℕ) {ents ents' : List ℕ}
    (hperm : ents.Perm ents') :
    requestsOf func delayedFunc ents = requestsOf func delayedFunc ents' :=
  hperm.countP_eq _

theorem requestsOf_update {ents : List ℕ} (hent : ent ∉ ents) (callback : ℕ) :
    requestsOf func (update delayedFunc ent callback) ents =
      requestsOf func delayedFunc ents := by
  apply countP_congr
  intro other hother
  have hne : other ≠ ent := by
    rintro rfl
    exact hent hother
  rw [update_of_ne hne]

theorem allWaiting_append : (allWaiting (update waiting isIn (waiting isIn ++ [ent]))).Perm
      (ent :: allWaiting waiting) := by
  cases isIn with
  | false =>
    simp only [allWaiting, update_self, ne_eq, reduceCtorEq,
      not_false_eq_true, update_of_ne, append_assoc,
      singleton_append]
    exact perm_middle
  | true =>
    simp only [allWaiting, update_self, ne_eq, reduceCtorEq,
      not_false_eq_true, update_of_ne]
    rw [← append_assoc]
    exact perm_append_singleton _ _

theorem allWaiting_tail (hwaiting : waiting isIn = ent :: rest) :
    (allWaiting waiting).Perm (ent :: allWaiting (update waiting isIn rest)) := by
  cases isIn with
  | false =>
    simp only [allWaiting, hwaiting, update_self, ne_eq,
      reduceCtorEq, not_false_eq_true, update_of_ne,
      cons_append]
    exact List.Perm.refl _
  | true =>
    simp only [allWaiting, hwaiting, update_self, ne_eq,
      reduceCtorEq, not_false_eq_true, update_of_ne]
    exact perm_middle

end Counting

section Functions

variable {g g' : BufGlobals} {free spare : List ℕ} {waiting : Bool → List ℕ} {isIn : Bool}

theorem zbGetBuf_delayedFunc {got : Option ℕ} (hget : zbGetBuf g isIn = some (g', got)) :
    g'.delayedFunc = g.delayedFunc := by
  unfold zbGetBuf at hget
  split at hget
  · split at hget
    · split at hget
      · obtain ⟨rfl, -⟩ := some_pair_inj hget
        rfl
      · obtain ⟨rfl, -⟩ := some_pair_inj hget
        rfl
    · obtain ⟨rfl, -⟩ := some_pair_inj hget
      rfl
  · contradiction

theorem zbScheduleCallback_delayedFunc (func : ℕ) (param : Option ℕ) :
    (zbScheduleCallback g func param).1.delayedFunc = g.delayedFunc := by
  rw [zbScheduleCallback_fst]

section

variable (hrep : PoolRep g free waiting spare)

include hrep

theorem PoolRep.zbGetBufDelayed_delayedFunc {callback : ℕ} {ret : Except RetError Unit}
    (hget : Zboss.zbGetBufDelayed g callback isIn = some (g', ret))
    (hroom : g.bufsAllocated isIn < bufsLimit) :
    g'.delayedFunc = g.delayedFunc := by
  rcases hrep.zbGetBuf isIn with ⟨hfull, -⟩ | ⟨buf, rest, -, -, hbuf, -⟩
  · exact absurd hroom (hfull ▸ Nat.lt_irrefl _)
  · rw [Zboss.zbGetBufDelayed, hbuf] at hget
    have hschedule : _ = g' := congrArg Prod.fst (some.inj hget)
    rw [← hschedule]
    exact zbScheduleCallback_delayedFunc callback (some buf)

theorem PoolRep.zbGetBufDelayed_delayedFunc_of_full {callback ent : ℕ}
    {ret : Except RetError Unit}
    (hget : Zboss.zbGetBufDelayed g callback isIn = some (g', ret))
    (hfull : g.bufsAllocated isIn = bufsLimit)
    (hent : g.bufFreelist = some ent) :
    g'.delayedFunc = update g.delayedFunc ent callback := by
  rcases hrep.zbGetBuf isIn with ⟨-, hnone⟩ | ⟨_, _, -, hroom, -, -⟩
  · rw [Zboss.zbGetBufDelayed, hnone, bind_eq_bind, bind_some] at hget
    dsimp only at hget
    rw [hent] at hget
    have hinsert : _ = g' := congrArg Prod.fst (some.inj hget)
    rw [← hinsert]
    rfl
  · exact absurd hroom (hfull ▸ Nat.lt_irrefl _)

theorem PoolRep.bufFreelist_of_refused {callback : ℕ}
    (hfull : g.bufsAllocated isIn = bufsLimit)
    (hget : Zboss.zbGetBufDelayed g callback isIn =
      some (g, .error .error)) : g.bufFreelist = none := by
  rcases hrep.zbGetBuf isIn with ⟨-, hnone⟩ | ⟨_, _, -, hroom, -, -⟩
  · rw [Zboss.zbGetBufDelayed, hnone, bind_eq_bind, bind_some] at hget
    dsimp only at hget
    cases hent : g.bufFreelist with
    | none => rfl
    | some ent =>
      rw [hent] at hget
      have hret := congrArg Prod.snd (some.inj hget)
      contradiction
  · exact absurd hroom (hfull ▸ Nat.lt_irrefl _)

end

theorem zbFreeBuf_delayedFunc {buf : ℕ} (hfree : zbFreeBuf g buf = some g') :
    g'.delayedFunc = g.delayedFunc := by
  unfold zbFreeBuf at hfree
  dsimp only at hfree
  split at hfree
  · generalize hcut : (if g.isInBuf buf = true ∧
        (pushFreeBuf g buf).rxNeedBuf = true then (pushFreeBuf g buf, none)
      else (pushFreeBuf g buf).cutWaiting (g.isInBuf buf)) = cut at hfree
    have hkept : cut.1.delayedFunc = g.delayedFunc := by
      rw [← hcut]
      split <;> rfl
    obtain ⟨g₁, ent⟩ := cut
    cases ent with
    | none =>
      obtain rfl := some.inj hfree
      exact hkept
    | some ent =>
      obtain ⟨⟨g₂, got⟩, hget, hrest⟩ := bind_eq_some_iff.mp hfree
      have hgot := zbGetBuf_delayedFunc hget
      cases got with
      | none => contradiction
      | some buf' =>
        obtain rfl := some.inj hrest
        change (zbScheduleCallback g₂ _ _).1.delayedFunc = _
        rw [zbScheduleCallback_delayedFunc, hgot]
        exact hkept
  · contradiction

end Functions

/-! ## Calls of the pool -/

section Calls

variable {state next : BufState} {free spare : List ℕ}
  {waiting : Bool → List ℕ} {func n : ℕ}

theorem outstanding_iff_of_rep (state : BufState) (func : ℕ)
    (hrep : PoolRep state.g free waiting spare) :
    state.Outstanding func n ↔ n = callsOf func state.queuedEnts +
        requestsOf func state.g.delayedFunc (allWaiting waiting) := by
  constructor
  · rintro ⟨other, hholds, hn⟩
    have hsame : other = waiting := by
      funext isIn
      exact (hholds isIn).chain.unique (hrep.queues isIn).chain
    rw [← hsame]
    exact hn
  · intro hn
    exact ⟨waiting, hrep.queues, hn⟩

theorem BufState.Outstanding.unique {m : ℕ} (hsound : state.Sound)
    (hn : state.Outstanding func n) (hm : state.Outstanding func m) :
    n = m := by
  obtain ⟨free, waiting, spare, hinvariant⟩ := hsound
  rw [outstanding_iff_of_rep _ _ hinvariant.rep] at hn hm
  rw [hn, hm]

theorem callsOf_ringPut (func : ℕ) (owned : Multiset ℕ)
    (hring : state.g.cbQ.Valid schedulerQSize)
    (hdispatching : state.dispatching = true → 0 < state.g.cbQ.written)
    {g : BufGlobals} {callback : ℕ} {param : Option ℕ}
    (hput : g.cbQ = ringPut state.g.cbQ callback param) :
    callsOf func (BufState.queuedEnts { state with g := g, owned := owned }) =
      callsOf func state.queuedEnts +
        if callback = func ∧ state.g.cbQ.written < schedulerQSize then 1
        else 0 := by
  unfold BufState.queuedEnts
  dsimp only
  rw [hput, ringPut]
  by_cases hroom : state.g.cbQ.written < schedulerQSize
  · have hput : ∀ ents : List CbQEnt,
        callsOf func (ents ++ [⟨callback, param⟩]) = callsOf func ents +
            if callback = func ∧ state.g.cbQ.written < schedulerQSize then 1
            else 0 := by
      intro ents
      simp only [callsOf_append_single, hroom, and_true]
    rw [if_neg (Nat.not_le_of_lt hroom), hring.contents_put hroom]
    by_cases hrunning : state.dispatching = true
    · rw [if_pos hrunning, if_pos hrunning, tail_append_of_ne_nil, hput]
      have hlength := hdispatching hrunning
      rw [← @RingBuf.contents_length _ schedulerQSize] at hlength
      exact ne_nil_of_length_pos hlength
    · rw [if_neg hrunning, if_neg hrunning, hput]
  · rw [if_pos (Nat.le_of_not_lt hroom)]
    simp [hroom]

theorem BufState.Outstanding.congr (hn : state.Outstanding func n)
    (hcbQ : next.g.cbQ = state.g.cbQ)
    (hdispatching : next.dispatching = state.dispatching)
    (hqueue : next.g.bufQueue = state.g.bufQueue)
    (hnext : next.g.delayedNext = state.g.delayedNext)
    (hfunc : next.g.delayedFunc = state.g.delayedFunc) :
    next.Outstanding func n := by
  obtain ⟨waiting, hholds, hn⟩ := hn
  refine ⟨waiting, ?_, ?_⟩
  · rw [hqueue, hnext]
    exact hholds
  · rw [BufState.queuedEnts, hcbQ, hdispatching, hfunc]
    exact hn

section

variable (hinvariant : BufInvariant state free waiting spare)
  (hn : state.Outstanding func n)

include hinvariant hn

theorem BufInvariant.outstanding_getBuf {isIn : Bool} {g : BufGlobals}
    {got : Option ℕ} (hget : zbGetBuf state.g isIn = some (g, got))
    (owned : Multiset ℕ) (receiving : Bool) :
    BufState.Outstanding
      { state with g := g, owned := owned, receiving := receiving } func n := by
  rcases hinvariant.rep.zbGetBuf isIn with ⟨-, hnone⟩ | ⟨buf, rest, -, -, hsome, -⟩
  · rw [hnone, some.injEq, Prod.mk.injEq] at hget
    obtain ⟨rfl, -⟩ := hget
    exact hn.congr rfl rfl rfl rfl rfl
  · rw [hsome, some.injEq, Prod.mk.injEq] at hget
    obtain ⟨rfl, -⟩ := hget
    exact hn.congr rfl rfl rfl rfl rfl

theorem BufInvariant.outstanding_getBufDelayed {callback : ℕ} {isIn : Bool}
    {g : BufGlobals} {ret : Except RetError Unit}
    (hget : zbGetBufDelayed state.g callback isIn = some (g, ret)) :
    BufState.Outstanding { state with g := g } func
      (if callback = func ∧ ¬ state.Refuses isIn then n + 1 else n) := by
  have hrep := hinvariant.rep
  rw [outstanding_iff_of_rep _ _ hrep] at hn
  rcases hrep.zbGetBufDelayed callback isIn with
    ⟨buf, rest, g', ret', -, hroom, hsome, hrep', -, hput, -⟩ |
    ⟨ent, rest, g', hspare, hfull, hsome, hrep', -, hcbQ, -⟩ |
    ⟨hfull, hsome⟩
  · have hfunc := hrep.zbGetBufDelayed_delayedFunc hget hroom
    rw [hsome, some.injEq, Prod.mk.injEq] at hget
    obtain ⟨rfl, -⟩ := hget
    rw [outstanding_iff_of_rep { state with g := g' } _ hrep']
    have hcalls := callsOf_ringPut func state.owned hrep.ring hinvariant.dispatching hput
    have hrefuses : state.Refuses isIn ↔
        schedulerQSize ≤ state.g.cbQ.written := by
      rw [BufState.Refuses, if_pos hroom]
    dsimp only at hcalls ⊢
    rw [hcalls, hfunc, hn]
    simp only [hrefuses, Nat.not_le]
    split <;> omega
  · have hent : state.g.bufFreelist = some ent := by
      have hspares := hrep.spares
      rw [hspare] at hspares
      exact hspares.1
    have hnew : ent ∉ allWaiting waiting := by
      intro hmem
      have hout : ent ∈ spare := hspare ▸ mem_cons_self
      rcases mem_append.mp hmem with hmem | hmem
      · exact hrep.unspare _ _ hmem hout
      · exact hrep.unspare _ _ hmem hout
    have hfunc := hrep.zbGetBufDelayed_delayedFunc_of_full hget hfull hent
    rw [hsome, some.injEq, Prod.mk.injEq] at hget
    obtain ⟨rfl, -⟩ := hget
    rw [outstanding_iff_of_rep { state with g := g' } _ hrep']
    have hqueued : BufState.queuedEnts { state with g := g' } = state.queuedEnts := by
      unfold BufState.queuedEnts
      rw [hcbQ]
    have hrefuses : ¬ state.Refuses isIn := by
      rw [BufState.Refuses, if_neg (by omega), hent]
      exact some_ne_none ent
    dsimp only at hqueued ⊢
    rw [hqueued, hfunc, requestsOf_perm _ _ allWaiting_append, requestsOf_cons,
      requestsOf_update hnew, update_self, hn]
    simp only [hrefuses, not_false_eq_true, and_true]
    split <;> omega
  · have hnone : state.g.bufFreelist = none :=
      hrep.bufFreelist_of_refused hfull hsome
    have hrefuses : state.Refuses isIn := by
      rw [BufState.Refuses, if_neg (by omega)]
      exact hnone
    rw [hsome, some.injEq, Prod.mk.injEq] at hget
    obtain ⟨rfl, -⟩ := hget
    rw [if_neg (fun hboth => hboth.2 hrefuses),
      outstanding_iff_of_rep { state with g := state.g } _ hrep]
    exact hn

theorem BufInvariant.outstanding_freeBuf {buf : ℕ} (howned : buf ∈ state.owned)
    {g : BufGlobals} (hfree : zbFreeBuf state.g buf = some g) :
    BufState.Outstanding { state with g := g, owned := state.owned.erase buf } func
      (if state.Drops func buf then n - 1 else n) := by
  have hrep := hinvariant.rep
  rw [outstanding_iff_of_rep _ _ hrep] at hn
  obtain ⟨hout, hbuf⟩ := hinvariant.owned_not_free howned
  have hfunc := zbFreeBuf_delayedFunc hfree
  have hchain := (hrep.queues (state.g.isInBuf buf)).chain
  rcases hrep.zbFreeBuf hout hbuf with
    ⟨hstays, g', hsome, hrep', -, hcbQ, -⟩ |
    ⟨hpass, ent, rest, g', hwaiting, hsome, hrep', -, hput, -⟩
  · rw [hsome, some.injEq] at hfree
    subst hfree
    have hkept : ¬ state.Drops func buf := by
      rintro ⟨-, hneeded, ent, hent, -⟩
      rcases hstays with hneeded' | hnil
      · exact hneeded hneeded'
      · rw [hnil] at hchain
        rw [hchain] at hent
        contradiction
    rw [if_neg hkept, outstanding_iff_of_rep
      { state with g := g', owned := state.owned.erase buf } _ hrep']
    have hqueued : BufState.queuedEnts
        { state with g := g', owned := state.owned.erase buf } = state.queuedEnts := by
      unfold BufState.queuedEnts
      rw [hcbQ]
    dsimp only at hqueued ⊢
    rw [hqueued, hfunc]
    exact hn
  · rw [hsome, some.injEq] at hfree
    subst hfree
    have hdrops : state.Drops func buf ↔ schedulerQSize ≤ state.g.cbQ.written ∧
          state.g.delayedFunc ent = func := by
      rw [hwaiting] at hchain
      rw [BufState.Drops, hchain.1]
      simp [hpass]
    rw [outstanding_iff_of_rep
      { state with g := g', owned := state.owned.erase buf } _ hrep']
    have hcalls := callsOf_ringPut func (state.owned.erase buf) hrep.ring
      hinvariant.dispatching hput
    have hwaits := requestsOf_perm func state.g.delayedFunc (allWaiting_tail hwaiting)
    rw [requestsOf_cons] at hwaits
    dsimp only at hcalls ⊢
    rw [hcalls, hfunc, hn, hwaits]
    simp only [hdrops]
    by_cases hsame : state.g.delayedFunc ent = func
    · by_cases hroom : schedulerQSize ≤ state.g.cbQ.written
      · simp [hsame, hroom]
      · simp only [hsame, hroom, false_and, if_false, true_and, if_true,
          Nat.lt_of_not_le hroom]
        omega
    · simp [hsame]

theorem BufInvariant.outstanding_scheduleCallback {callback : ℕ} {param : Option ℕ}
    (happly : (BufCall.scheduleCallback callback param).apply state = some next) :
    next.Outstanding func
      (if callback = func ∧ state.g.cbQ.written < schedulerQSize then n + 1
        else n) := by
  have hrep := hinvariant.rep
  rw [outstanding_iff_of_rep _ _ hrep] at hn
  rw [BufCall.apply] at happly
  split at happly
  · have hput := zbScheduleCallback_fst state.g callback param
    have hrep' := hrep.zbScheduleCallback callback param
    have hstate : ∃ owned, next =
        { state with
          g := (zbScheduleCallback state.g callback param).1
          owned := owned } := by
      split at happly
      · rename_i g _ hschedule
        rw [hschedule]
        exact ⟨_, (some.inj happly).symm⟩
      · rename_i g _ hschedule
        rw [hschedule]
        exact ⟨_, (some.inj happly).symm⟩
    obtain ⟨owned, rfl⟩ := hstate
    have hring : (zbScheduleCallback state.g callback param).1.cbQ =
        ringPut state.g.cbQ callback param := congrArg BufGlobals.cbQ hput
    have hcalls := callsOf_ringPut func owned hrep.ring hinvariant.dispatching hring
    rw [outstanding_iff_of_rep _ _ hrep', hcalls]
    dsimp only
    rw [zbScheduleCallback_delayedFunc, hn]
    split <;> omega
  · contradiction

theorem BufInvariant.outstanding_dispatch (hdispatch : state.dispatch = some next) :
    next.Outstanding func
      (if ∃ ent ∈ state.g.cbQ.peek, ent.func = func then n - 1 else n) := by
  obtain ⟨waiting', hholds, hn⟩ := hn
  rw [BufState.dispatch] at hdispatch
  split at hdispatch
  · rename_i ent hidle hpeek
    obtain rfl := some.inj hdispatch
    refine ⟨waiting', hholds, ?_⟩
    rw [hpeek]
    rw [RingBuf.peek_eq_head? hinvariant.rep.ring] at hpeek
    obtain ⟨rest, hcontents⟩ := List.head?_eq_some_iff.mp hpeek
    rw [BufState.queuedEnts, hidle, if_neg Bool.false_ne_true, hcontents,
      callsOf_cons] at hn
    rw [BufState.queuedEnts, if_pos rfl, hcontents, tail_cons]
    simp only [Option.mem_some_iff, exists_eq_left']
    split at hn
    · rename_i hsame
      rw [if_pos hsame]
      omega
    · rename_i hother
      rw [if_neg hother]
      exact hn
  · contradiction

theorem BufInvariant.outstanding_dispatchEnd
    (happly : BufCall.dispatchEnd.apply state = some next) :
    next.Outstanding func n := by
  rw [BufCall.apply] at happly
  split at happly
  · rename_i hrunning
    obtain rfl := some.inj happly
    obtain ⟨waiting', hholds, hn⟩ := hn
    refine ⟨waiting', hholds, ?_⟩
    rw [BufState.queuedEnts, if_pos hrunning] at hn
    rw [BufState.queuedEnts, if_neg Bool.false_ne_true]
    dsimp only
    rw [RingBuf.contents_flushGet (hinvariant.dispatching hrunning)]
    exact hn
  · contradiction

theorem BufInvariant.outstanding_macReceive
    (happly : state.macReceive = some next) : next.Outstanding func n := by
  rw [BufState.macReceive] at happly
  split at happly
  · contradiction
  · obtain ⟨⟨g, got⟩, hget, rfl⟩ := map_eq_some_iff.mp happly
    cases got with
    | some buf => exact hinvariant.outstanding_getBuf hn hget (buf ::ₘ state.owned) true
    | none =>
      have hgot := hinvariant.outstanding_getBuf hn hget state.owned state.receiving
      exact hgot.congr rfl rfl rfl rfl rfl

end

theorem BufState.Outstanding.apply {call : BufCall}
    (hn : state.Outstanding func n) (hsound : state.Sound)
    (happly : call.apply state = some next) :
    next.Outstanding func (call.outstandingAfter state func n) := by
  obtain ⟨free, waiting, spare, hinvariant⟩ := hsound
  cases call with
  | getBuf isIn =>
    obtain ⟨⟨g, got⟩, hget, rfl⟩ := map_eq_some_iff.mp happly
    exact hinvariant.outstanding_getBuf hn hget _ _
  | getBufDelayed callback isIn =>
    obtain ⟨⟨g, ret⟩, hget, rfl⟩ := map_eq_some_iff.mp happly
    exact hinvariant.outstanding_getBufDelayed hn hget
  | freeBuf buf =>
    rw [BufCall.apply] at happly
    split at happly
    · rename_i howned
      obtain ⟨g, hfree, rfl⟩ := map_eq_some_iff.mp happly
      exact hinvariant.outstanding_freeBuf hn howned hfree
    · contradiction
  | scheduleCallback callback param =>
    exact hinvariant.outstanding_scheduleCallback hn happly
  | dispatch => exact hinvariant.outstanding_dispatch hn happly
  | dispatchEnd => exact hinvariant.outstanding_dispatchEnd hn happly
  | macReceive => exact hinvariant.outstanding_macReceive hn happly
  | macReceived =>
    rw [BufCall.apply] at happly
    split at happly
    · obtain rfl := some.inj happly
      exact hn.congr rfl rfl rfl rfl rfl
    · contradiction

end Calls

theorem outstanding_start (func : ℕ) : BufState.start.Outstanding func 0 := by
  rw [outstanding_iff_of_rep _ _ poolRep_start, BufState.queuedEnts, cbQ_start]
  rfl

end Zboss
