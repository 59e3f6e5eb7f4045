import Zboss.BroadcastTables
import Zboss.BufferConservation

/-!
# Granted buffers

The callbacks which take the parameter 0 for no buffer, over the pool which
grants buffers to them.  The pool counts its buffers from 0 on, so that its
first one looks like no buffer to them.
-/

namespace Zboss

open Option List NwkCallback LinkedChain RingBuffer TransitionSystem

def NwkCallback.address (func : NwkCallback) : ℕ := func.ctorIdx

def NwkCallback.zeroIsNone : NwkCallback → Bool
  | .nwkBroadcastTransmition | .newBufferAllocated => true
  | _ => false

def TakesZero (address : ℕ) : Prop :=
  address = nwkBroadcastTransmition.address ∨ address = newBufferAllocated.address

instance (address : ℕ) : Decidable (TakesZero address) :=
  inferInstanceAs (Decidable (_ ∨ _))

theorem takesZero_address_iff (func : NwkCallback) :
    TakesZero func.address ↔ func.zeroIsNone = true := by
  cases func <;> decide

/-- The call of the scheduler or of the pool which an output stands for. -/
def NwkOutput.bufCall : NwkOutput → Option BufCall
  | .schedule func param =>
      some (.scheduleCallback func.address
          (if func.zeroIsNone ∧ param = 0 then none else some param))
  | .freeBuf param => some (.freeBuf param)
  | .getBufDelayed func isIn => some (.getBufDelayed func.address isIn)
  | _ => none

def BufCall.taken : BufCall → Option ℕ
  | .freeBuf buf => some buf
  | .scheduleCallback _ param => param
  | _ => none

structure GrantRun where
  pool : BufState
  nwk : NwkMain
  todo : List BufCall

namespace GrantRun

/-- Other code uses the pool or changes the network layer, the scheduler calls
one of the callbacks, and the callback makes its next call. -/
inductive Event where
  | pool (call : BufCall)
  | nwk (next : NwkMain)
  | deliver (func : NwkCallback)
  | perform

/-- Other code schedules the callbacks with the parameter 0 only, and they are
called as `deliver`. -/
def OtherCode (pool : BufState) : BufCall → Prop
  | .scheduleCallback func param => TakesZero func → param = none
  | .dispatch => ∀ ent ∈ pool.g.cbQ.peek, ¬ TakesZero ent.func
  | _ => True

instance (pool : BufState) (call : BufCall) :
    Decidable (OtherCode pool call) :=
  match call with
  | .scheduleCallback _ _ => inferInstanceAs (Decidable (_ → _))
  | .dispatch =>
      inferInstanceAs (Decidable (∀ ent ∈ pool.g.cbQ.peek, ¬ TakesZero ent.func))
  | .getBuf _ | .getBufDelayed _ _ | .freeBuf _ | .dispatchEnd | .macReceive
  | .macReceived => .isTrue trivial

def called (nwk : NwkMain) (param : ℕ) : NwkCallback → Option (NwkMain × List NwkOutput)
  | .nwkBroadcastTransmition => nwk.nwkBroadcastTransmition param
  | .newBufferAllocated => some (nwk.newBufferAllocated param)
  | _ => none

def callback (nwk : NwkMain) (func : NwkCallback) (param : ℕ) :
    Option (NwkMain × List BufCall) :=
  (called nwk param func).map fun (nwk, outputs) =>
    (nwk, outputs.filterMap NwkOutput.bufCall)

def step (run : GrantRun) (event : Event) : Option GrantRun :=
  match run.todo, event with
  | [], .pool call =>
      if OtherCode run.pool call then
        (call.apply run.pool).map fun pool => { run with pool := pool }
      else none
  | [], .nwk next => some { run with nwk := next }
  | [], .deliver func =>
      match run.pool.g.cbQ.peek with
      | some ent =>
          if ent.func = func.address then do
            let pool ← run.pool.dispatch
            let (nwk, calls) ← callback run.nwk func (ent.param.getD 0)
            some ⟨pool, nwk, calls⟩
          else none
      | none => none
  | call :: rest, .perform =>
      (call.apply run.pool).map fun pool => { run with pool := pool, todo := rest }
  | _, _ => none

def start (nwk : NwkMain) : GrantRun := ⟨.start, nwk, []⟩

def Delivers (run : GrantRun) (func : NwkCallback) (buf : ℕ) : Prop :=
  run.pool.g.cbQ.peek = some ⟨func.address, some buf⟩

def Holds (nwk : NwkMain) (buf : ℕ) : Prop :=
  (∃ i, (nwk.brrt.ents i).buf = buf) ∨ ∃ i, nwk.waitAlloc.ents i = buf

/-- The calls hand on the granted buffer, and beyond it only packets of the
tables. -/
def HandsOn (nwk : NwkMain) (buf : ℕ) (calls : List BufCall) : Prop :=
  ∃ rest, calls.filterMap BufCall.taken = buf :: rest ∧ ∀ other ∈ rest, Holds nwk other

/-- A granted buffer is not taken for no buffer by the callback to which it is
delivered: the callback uses or frees it. -/
def Serves (run : GrantRun) : Event → Prop
  | .deliver func =>
      func.zeroIsNone = true → ∀ buf, run.Delivers func buf → buf ≠ 0 ∧
          ∀ nwk calls, callback run.nwk func buf = some (nwk, calls) →
            HandsOn run.nwk buf calls
  | _ => True

def SparesZero (pool : BufState) : BufCall → Prop
  | .getBufDelayed callback isIn =>
      TakesZero callback → pool.g.bufsAllocated isIn < bufsLimit →
        pool.g.cbQ.written < schedulerQSize → pool.g.head ≠ some 0
  | .freeBuf buf =>
      buf = 0 → ¬ (pool.g.isInBuf 0 = true ∧ pool.g.rxNeedBuf = true) →
        pool.g.cbQ.written < schedulerQSize →
          ∀ ent ∈ (pool.g.bufQueue (pool.g.isInBuf 0)).head,
            ¬ TakesZero (pool.g.delayedFunc ent)
  | _ => True

instance (pool : BufState) (call : BufCall) :
    Decidable (SparesZero pool call) :=
  match call with
  | .getBufDelayed _ _ => inferInstanceAs (Decidable (_ → _))
  | .freeBuf _ => inferInstanceAs (Decidable (_ → _))
  | .getBuf _ | .scheduleCallback _ _ | .dispatch | .dispatchEnd | .macReceive
  | .macReceived => .isTrue trivial

/-- The first buffer is not granted to one of the callbacks, and an entry waits
for the buffer which `new_buffer_allocated` gets. -/
def Meets (run : GrantRun) : Event → Prop
  | .pool call => SparesZero run.pool call
  | .perform => ∀ call ∈ run.todo.head?, SparesZero run.pool call
  | .deliver func =>
      func = .newBufferAllocated → ∀ ent ∈ run.pool.g.cbQ.peek,
        ent.func = func.address → ent.param ≠ none → run.nwk.waitAlloc.cnt ≠ 0
  | .nwk _ => True

instance (run : GrantRun) (event : Event) : Decidable (run.Meets event) := by
  unfold Meets
  split <;> infer_instance

end GrantRun

namespace NwkMain

theorem pickUnicast_buf (nwk : NwkMain) (entries : List ℕ) (i : ℕ) :
    ((nwk.pickUnicast entries).1.brrt.ents i).buf = (nwk.brrt.ents i).buf := by
  induction entries generalizing nwk with
  | nil => rfl
  | cons j rest ih =>
    rw [pickUnicast]
    dsimp only
    split
    · split
      · rw [ih]
        by_cases hi : i = j
        · subst hi
          simp [NwkArray.setEnt]
        · simp [NwkArray.setEnt, hi]
      · rfl
    · exact ih nwk

theorem pickBroadcast_buf (nwk : NwkMain) (i : ℕ) :
    (nwk.pickBroadcast.1.brrt.ents i).buf = (nwk.brrt.ents i).buf := by
  have hunicast := pickUnicast_buf nwk (List.range nwkBrrTableSize) i
  unfold pickBroadcast
  split
  · rfl
  · split
    · rename_i hpick
      rw [hpick] at hunicast
      exact hunicast
    · rename_i hpick
      rw [hpick] at hunicast
      exact hunicast

theorem countTransmission_buf
    {nwk : NwkMain} {ent counted : NwkBroadcastRetransmit} {child : Option ℕ}
    (hcount : nwk.countTransmission ent child = some counted) :
    counted.buf = ent.buf := by
  cases child with
  | some n =>
    rw [countTransmission] at hcount
    split at hcount
    · obtain rfl := some.inj hcount
      rfl
    · contradiction
  | none =>
    obtain rfl := some.inj hcount
    rfl

theorem taken_scheduleTransmition (nwk : NwkMain) (sent : Bool) :
    ((nwk.scheduleTransmition sent).filterMap NwkOutput.bufCall).filterMap
      BufCall.taken = [] := by
  unfold scheduleTransmition
  split
  · cases sent with
    | true => rfl
    | false => rfl
  · rfl

end NwkMain

theorem PoolRep.zbGetBuf_cbQ
    {g g' : BufGlobals} {free spare : List ℕ} {waiting : Bool → List ℕ}
    {isIn : Bool} {got : Option ℕ} (hrep : PoolRep g free waiting spare)
    (hget : Zboss.zbGetBuf g isIn = some (g', got)) : g'.cbQ = g.cbQ := by
  rcases hrep.zbGetBuf isIn with ⟨_, hnone⟩ | ⟨buf, rest, _, _, hsome, _⟩
  · rw [hnone, some.injEq, Prod.mk.injEq] at hget
    rw [← hget.1]
  · rw [hsome, some.injEq, Prod.mk.injEq] at hget
    rw [← hget.1]
    rfl

namespace GrantRun

variable {run next : GrantRun} {nwk nwk' : NwkMain} {buf : ℕ} {calls : List BufCall}

theorem transmitEnt_handsOn {i : ℕ} {child : Option ℕ} {outputs : List NwkOutput}
    (hsend : nwk.transmitEnt buf i child = some (nwk', outputs)) :
    ∃ rest, (outputs.filterMap NwkOutput.bufCall).filterMap BufCall.taken = buf :: rest ∧
      ∀ other ∈ rest, other = (nwk.brrt.ents i).buf := by
  obtain ⟨counted, hcount, hrest⟩ := bind_eq_some_iff.mp hsend
  dsimp only at hrest
  split at hrest
  · obtain ⟨-, rfl⟩ := some_pair_inj hrest
    refine ⟨[counted.buf], ?_, ?_⟩
    · rw [filterMap_append, filterMap_append, NwkMain.taken_scheduleTransmition]
      rfl
    · intro other hother
      rw [mem_singleton.mp hother]
      exact NwkMain.countTransmission_buf hcount
  · obtain ⟨-, rfl⟩ := some_pair_inj hrest
    refine ⟨[], ?_, fun other hother => absurd hother not_mem_nil⟩
    rw [← singleton_append, filterMap_append, filterMap_append,
      NwkMain.taken_scheduleTransmition]
    rfl

theorem nwkBroadcastTransmition_handsOn {outputs : List NwkOutput} (hbuf : buf ≠ 0)
    (hsend : nwk.nwkBroadcastTransmition buf = some (nwk', outputs)) :
    HandsOn nwk buf (outputs.filterMap NwkOutput.bufCall) := by
  unfold NwkMain.nwkBroadcastTransmition at hsend
  split at hsend
  · rename_i picked i child hpick
    rw [if_neg hbuf] at hsend
    obtain ⟨rest, htaken, hothers⟩ := transmitEnt_handsOn hsend
    refine ⟨rest, htaken, ?_⟩
    intro other hother
    have hkept := nwk.pickBroadcast_buf i
    rw [hpick] at hkept
    exact .inl ⟨i, hkept.symm.trans (hothers other hother).symm⟩
  · obtain ⟨-, rfl⟩ := some_pair_inj hsend
    refine ⟨[], ?_, fun other hother => absurd hother not_mem_nil⟩
    rw [if_pos hbuf, filterMap_append, filterMap_append, NwkMain.taken_scheduleTransmition]
    rfl

theorem newBufferAllocated_handsOn (hbuf : buf ≠ 0) (hwaits : nwk.waitAlloc.cnt ≠ 0) :
    HandsOn nwk buf ((nwk.newBufferAllocated buf).2.filterMap NwkOutput.bufCall) := by
  unfold NwkMain.newBufferAllocated
  rw [if_pos ⟨hbuf, hwaits⟩]
  refine ⟨[nwk.waitAlloc.ents (nwk.waitAlloc.cnt.toNat - 1)], ?_, ?_⟩
  · dsimp only
    rw [filterMap_append, filterMap_append]
    split
    · rfl
    · rfl
  · intro other hother
    exact .inr ⟨_, (mem_singleton.mp hother).symm⟩

theorem callback_handsOn {func : NwkCallback} (hbuf : buf ≠ 0)
    (hwaits : func = .newBufferAllocated → nwk.waitAlloc.cnt ≠ 0)
    (hcall : callback nwk func buf = some (nwk', calls)) :
    HandsOn nwk buf calls := by
  obtain ⟨⟨called, outputs⟩, hfunc, hcalls⟩ := map_eq_some_iff.mp hcall
  obtain ⟨-, rfl⟩ := Prod.mk.inj hcalls
  cases func with
  | nwkBroadcastTransmition => exact nwkBroadcastTransmition_handsOn hbuf hfunc
  | newBufferAllocated =>
    have hout := congrArg Prod.snd (some.inj hfunc)
    dsimp only at hout
    rw [← hout]
    exact newBufferAllocated_handsOn hbuf (hwaits rfl)
  | _ => contradiction

/-! ## The queued callbacks -/

def CleanEnt (ent : CbQEnt) : Prop :=
  TakesZero ent.func → ent.param ≠ some 0

def CleanCall : BufCall → Prop
  | .scheduleCallback func param => CleanEnt ⟨func, param⟩
  | _ => True

theorem cleanCall_bufCall
    {output : NwkOutput} {call : BufCall} (hcall : output.bufCall = some call) :
    CleanCall call := by
  cases output with
  | schedule func param =>
    obtain rfl := some.inj hcall
    intro htakes
    by_cases hzero : func.zeroIsNone = true ∧ param = 0
    · rw [if_pos hzero]
      exact some_ne_none 0 |>.symm
    · rw [if_neg hzero]
      intro hparam
      apply hzero
      exact ⟨(takesZero_address_iff func).mp htakes, some.inj hparam⟩
  | freeBuf _ =>
    obtain rfl := some.inj hcall
    trivial
  | getBufDelayed _ _ =>
    obtain rfl := some.inj hcall
    trivial
  | _ => contradiction

theorem mem_contents_ringPut
    {ring : RingBuf CbQEnt} (hring : ring.Valid schedulerQSize) {func : ℕ}
    {param : Option ℕ} {ent : CbQEnt}
    (hmem : ent ∈ (ringPut ring func param).contents schedulerQSize) :
    ent ∈ ring.contents schedulerQSize ∨
      ring.written < schedulerQSize ∧ ent = ⟨func, param⟩ := by
  unfold ringPut at hmem
  split at hmem
  · exact .inl hmem
  · rename_i hroom
    have hroom := Nat.lt_of_not_le hroom
    rw [hring.contents_put hroom, mem_append, mem_singleton] at hmem
    exact hmem.imp_right fun heq => ⟨hroom, heq⟩

theorem cleanEnt_apply {pool pool' : BufState} {call : BufCall} (hsound : pool.Sound)
    (hspares : SparesZero pool call) (hcall : CleanCall call)
    (happly : call.apply pool = some pool') {ent : CbQEnt}
    (hmem : ent ∈ pool'.g.cbQ.contents schedulerQSize) :
    ent ∈ pool.g.cbQ.contents schedulerQSize ∨ CleanEnt ent := by
  obtain ⟨free, waiting, spare, hinvariant⟩ := hsound
  have hrep := hinvariant.rep
  cases call with
  | getBuf isIn =>
    obtain ⟨⟨g, got⟩, hget, rfl⟩ := map_eq_some_iff.mp happly
    have hring := hrep.zbGetBuf_cbQ hget
    dsimp only at hmem
    rw [hring] at hmem
    exact .inl hmem
  | getBufDelayed callback isIn =>
    obtain ⟨⟨g, ret⟩, hget, rfl⟩ := map_eq_some_iff.mp happly
    rcases hrep.zbGetBufDelayed callback isIn with
      ⟨buf, rest, g', ret', rfl, hlt, hsome, -, -, hput, -⟩ |
      ⟨_, rest, g', _, _, hsome, _, _, hring, _⟩ | ⟨_, hsome⟩
    · rw [hsome, some.injEq, Prod.mk.injEq] at hget
      obtain ⟨rfl, -⟩ := hget
      dsimp only at hmem
      rw [hput] at hmem
      rcases mem_contents_ringPut hrep.ring hmem with hold | ⟨hroom, rfl⟩
      · exact .inl hold
      · right
        intro htakes hzero
        apply hspares htakes hlt hroom
        rw [hrep.chain.1]
        exact hzero
    · rw [hsome, some.injEq, Prod.mk.injEq] at hget
      obtain ⟨rfl, -⟩ := hget
      dsimp only at hmem
      rw [hring] at hmem
      exact .inl hmem
    · rw [hsome, some.injEq, Prod.mk.injEq] at hget
      obtain ⟨rfl, -⟩ := hget
      exact .inl hmem
  | freeBuf buf =>
    rw [BufCall.apply] at happly
    split at happly
    · rename_i howned
      obtain ⟨g, hfree, rfl⟩ := map_eq_some_iff.mp happly
      obtain ⟨hout, hbuf⟩ := hinvariant.owned_not_free howned
      rcases hrep.zbFreeBuf hout hbuf with
        ⟨-, g', hsome, -, -, hring, -⟩ |
        ⟨hpass, waiter, rest, g', hwaiting, hsome, -, -, hput, -⟩
      · rw [hsome, some.injEq] at hfree
        subst hfree
        dsimp only at hmem
        rw [hring] at hmem
        exact .inl hmem
      · rw [hsome, some.injEq] at hfree
        subst hfree
        dsimp only at hmem
        rw [hput] at hmem
        rcases mem_contents_ringPut hrep.ring hmem with hold | ⟨hroom, rfl⟩
        · exact .inl hold
        · right
          intro htakes hzero
          obtain rfl := some.inj hzero
          have hchain := (hrep.queues (pool.g.isInBuf 0)).chain
          rw [hwaiting] at hchain
          exact hspares rfl hpass hroom waiter hchain.1 htakes
    · contradiction
  | scheduleCallback func param =>
    rw [BufCall.apply] at happly
    split at happly
    · have hput := zbScheduleCallback_fst pool.g func param
      have hring : pool'.g.cbQ = ringPut pool.g.cbQ func param := by
        split at happly
        · rename_i g _ hschedule
          obtain rfl := some.inj happly
          rw [hschedule] at hput
          exact congrArg BufGlobals.cbQ hput
        · rename_i g _ hschedule
          obtain rfl := some.inj happly
          rw [hschedule] at hput
          exact congrArg BufGlobals.cbQ hput
      rw [hring] at hmem
      rcases mem_contents_ringPut hrep.ring hmem with hold | ⟨-, rfl⟩
      · exact .inl hold
      · exact .inr hcall
    · contradiction
  | dispatch =>
    change pool.dispatch = some pool' at happly
    rw [BufState.dispatch] at happly
    split at happly
    · obtain rfl := some.inj happly
      exact .inl hmem
    · contradiction
  | dispatchEnd =>
    rw [BufCall.apply] at happly
    split at happly
    · rename_i hrunning
      obtain rfl := some.inj happly
      dsimp only at hmem
      rw [RingBuf.contents_flushGet (hinvariant.dispatching hrunning)] at hmem
      exact .inl (mem_of_mem_tail hmem)
    · contradiction
  | macReceive =>
    change pool.macReceive = some pool' at happly
    rw [BufState.macReceive] at happly
    split at happly
    · contradiction
    · obtain ⟨⟨g, got⟩, hget, rfl⟩ := map_eq_some_iff.mp happly
      have hring := hrep.zbGetBuf_cbQ hget
      cases got with
      | some _ =>
        dsimp only at hmem
        rw [hring] at hmem
        exact .inl hmem
      | none =>
        dsimp only at hmem
        rw [hring] at hmem
        exact .inl hmem
  | macReceived =>
    rw [BufCall.apply] at happly
    split at happly
    · obtain rfl := some.inj happly
      exact .inl hmem
    · contradiction

structure NoZeroQueued (run : GrantRun) : Prop where
  sound : run.pool.Sound
  clean : ∀ ent ∈ run.pool.g.cbQ.contents schedulerQSize, CleanEnt ent
  calls : ∀ call ∈ run.todo, CleanCall call

theorem noZeroQueued_start (nwk : NwkMain) : NoZeroQueued (start nwk) where
  sound := sound_start
  clean := by
    change ∀ ent ∈ BufState.start.g.cbQ.contents schedulerQSize, _
    rw [cbQ_start]
    intro ent hmem
    exact absurd hmem not_mem_nil
  calls _ hcall := absurd hcall not_mem_nil

theorem NoZeroQueued.apply
    (hinvariant : NoZeroQueued run) {call : BufCall} {pool : BufState}
    {todo : List BufCall} (happly : call.apply run.pool = some pool)
    (hspares : SparesZero run.pool call) (hcall : CleanCall call)
    (htodo : ∀ call ∈ todo, CleanCall call) (nwk : NwkMain) :
    NoZeroQueued ⟨pool, nwk, todo⟩ where
  sound := hinvariant.sound.apply happly
  clean ent hmem :=
    (cleanEnt_apply hinvariant.sound hspares hcall happly hmem).elim
      (hinvariant.clean ent) id
  calls := htodo

theorem NoZeroQueued.step {event : Event} (hinvariant : NoZeroQueued run)
    (hmeets : Meets run event) (hstep : run.step event = some next) :
    NoZeroQueued next := by
  unfold GrantRun.step at hstep
  split at hstep
  · rename_i call htodo
    split at hstep
    · rename_i hother
      obtain ⟨pool, happly, rfl⟩ := map_eq_some_iff.mp hstep
      refine hinvariant.apply happly hmeets ?_ hinvariant.calls run.nwk
      cases call with
      | scheduleCallback func param =>
        intro htakes
        dsimp only
        rw [hother htakes]
        exact (some_ne_none 0).symm
      | _ => trivial
    · contradiction
  · obtain rfl := some.inj hstep
    exact ⟨hinvariant.sound, hinvariant.clean, hinvariant.calls⟩
  · rename_i func htodo
    split at hstep
    · split at hstep
      · obtain ⟨pool, hdispatch, hrest⟩ := bind_eq_some_iff.mp hstep
        obtain ⟨⟨nwk, calls⟩, hcall, hnext⟩ := bind_eq_some_iff.mp hrest
        obtain rfl := some.inj hnext
        have happly : BufCall.dispatch.apply run.pool = some pool := hdispatch
        refine hinvariant.apply happly trivial trivial ?_ nwk
        obtain ⟨⟨_, outputs⟩, -, hcalls⟩ := map_eq_some_iff.mp hcall
        obtain ⟨-, rfl⟩ := Prod.mk.inj hcalls
        intro call hmem
        obtain ⟨output, -, hout⟩ := mem_filterMap.mp hmem
        exact cleanCall_bufCall hout
      · contradiction
    · contradiction
  · rename_i call rest htodo
    obtain ⟨pool, happly, rfl⟩ := map_eq_some_iff.mp hstep
    have hcalls := hinvariant.calls
    unfold Meets at hmeets
    rw [htodo] at hcalls hmeets
    refine hinvariant.apply happly (hmeets call rfl) (hcalls call mem_cons_self) ?_ run.nwk
    intro other hother
    exact hcalls other (mem_cons_of_mem call hother)
  · contradiction

theorem NoZeroQueued.delivers_ne_zero {func : NwkCallback} (hinvariant : NoZeroQueued run)
    (hzero : func.zeroIsNone = true) (hdelivers : run.Delivers func buf) :
    buf ≠ 0 := by
  obtain ⟨_, _, _, hpool⟩ := hinvariant.sound
  rw [Delivers, RingBuf.peek_eq_head? hpool.rep.ring] at hdelivers
  have hclean := hinvariant.clean _ (mem_of_mem_head? hdelivers)
  rintro rfl
  exact hclean ((takesZero_address_iff func).mpr hzero) rfl

def relayingNwk (param : ℕ) : NwkMain :=
  ((broadcastingNwk.zbNwkForward param).map Prod.fst).getD broadcastingNwk

end GrantRun

end Zboss
