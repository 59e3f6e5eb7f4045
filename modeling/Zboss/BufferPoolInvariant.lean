import Zboss.BufferPool
import Mathlib.Data.Finset.Card

/-!
# What the buffer pool stands for

The linked structures of the pool stand for the list of free buffers, the
waiting callbacks of each direction and the spare queue entries.  One lemma for
each operation says what it does to them.
-/

namespace Zboss

open Function List LinkedChain RingBuffer

def allocatedBufs (free : List ℕ) (isInBuf : ℕ → Bool) (isIn : Bool) :
    Finset ℕ :=
  (Finset.range iobufPoolSize).filter fun buf => buf ∉ free ∧ isInBuf buf = isIn

structure PoolRep (g : BufGlobals) (free : List ℕ) (waiting : Bool → List ℕ)
    (spare : List ℕ) : Prop where
  chain : Chain g.bufNext g.head free
  bound : ∀ buf ∈ free, buf < iobufPoolSize
  count : ∀ isIn, g.bufsAllocated isIn = (allocatedBufs free g.isInBuf isIn).card
  limit : ∀ isIn, g.bufsAllocated isIn ≤ bufsLimit
  queues : ∀ isIn, (g.bufQueue isIn).Holds g.delayedNext (waiting isIn)
  spares : Chain g.delayedNext g.bufFreelist spare
  disjoint : ∀ ent, ent ∈ waiting true → ent ∉ waiting false
  unspare : ∀ isIn, ∀ ent ∈ waiting isIn, ent ∉ spare
  ring : g.cbQ.Valid schedulerQSize

section Counting

variable {free rest : List ℕ} {isInBuf : ℕ → Bool} {isIn : Bool} {buf : ℕ}

theorem mem_allocatedBufs : buf ∈ allocatedBufs free isInBuf isIn ↔
      buf < iobufPoolSize ∧ buf ∉ free ∧ isInBuf buf = isIn := by
  rw [allocatedBufs, Finset.mem_filter, Finset.mem_range]

theorem allocatedBufs_card
    (hnodup : free.Nodup) (hbound : ∀ buf ∈ free, buf < iobufPoolSize) :
    free.length + (allocatedBufs free isInBuf false).card +
      (allocatedBufs free isInBuf true).card = iobufPoolSize := by
  have hsplit : (allocatedBufs free isInBuf false).card +
      (allocatedBufs free isInBuf true).card =
        ((Finset.range iobufPoolSize).filter fun buf => buf ∉ free).card := by
    rw [← Finset.card_union_of_disjoint]
    · congr 1
      ext buf
      rw [Finset.mem_union, mem_allocatedBufs, mem_allocatedBufs,
        Finset.mem_filter, Finset.mem_range]
      cases isInBuf buf <;> simp
    · rw [Finset.disjoint_left]
      intro buf hfalse htrue
      rw [mem_allocatedBufs] at hfalse htrue
      rw [hfalse.2.2] at htrue
      exact Bool.false_ne_true htrue.2.2
  have hfree : ((Finset.range iobufPoolSize).filter
      fun buf => buf ∈ free).card = free.length := by
    rw [← toFinset_card_of_nodup hnodup]
    congr 1
    ext buf
    rw [Finset.mem_filter, Finset.mem_range, mem_toFinset]
    exact ⟨fun h => h.2, fun h => ⟨hbound buf h, h⟩⟩
  have hall := Finset.card_filter_add_card_filter_not
    (fun buf => buf ∈ free) (s := Finset.range iobufPoolSize)
  rw [hfree, Finset.card_range] at hall
  rw [Nat.add_assoc, hsplit]
  exact hall

theorem allocatedBufs_get
    (hnodup : (buf :: rest).Nodup) (hbuf : buf < iobufPoolSize) (dir : Bool) :
    (allocatedBufs rest (update isInBuf buf isIn) dir).card =
      (allocatedBufs (buf :: rest) isInBuf dir).card + if dir = isIn then 1 else 0 := by
  have hout := (nodup_cons.mp hnodup).1
  by_cases hdir : dir = isIn
  · rw [if_pos hdir]
    have hinsert : allocatedBufs rest (update isInBuf buf isIn) dir =
        insert buf (allocatedBufs (buf :: rest) isInBuf dir) := by
      ext other
      rw [Finset.mem_insert, mem_allocatedBufs, mem_allocatedBufs, mem_cons]
      by_cases heq : other = buf
      · subst heq
        simp [hbuf, hout, hdir]
      · simp [heq]
    rw [hinsert, Finset.card_insert_of_notMem]
    rw [mem_allocatedBufs]
    simp
  · rw [if_neg hdir, Nat.add_zero]
    congr 1
    ext other
    rw [mem_allocatedBufs, mem_allocatedBufs, mem_cons]
    by_cases heq : other = buf
    · subst heq
      simp [Ne.symm hdir]
    · simp [heq]

theorem allocatedBufs_free (hout : buf ∉ free) (hbuf : buf < iobufPoolSize) (dir : Bool) :
    (allocatedBufs (buf :: free) isInBuf dir).card =
      (allocatedBufs free isInBuf dir).card - if dir = isInBuf buf then 1 else 0 := by
  by_cases hdir : dir = isInBuf buf
  · rw [if_pos hdir]
    have herase : allocatedBufs (buf :: free) isInBuf dir =
        (allocatedBufs free isInBuf dir).erase buf := by
      ext other
      rw [Finset.mem_erase, mem_allocatedBufs, mem_allocatedBufs, mem_cons]
      by_cases heq : other = buf <;> simp [heq]
    rw [herase, Finset.card_erase_of_mem]
    exact mem_allocatedBufs.mpr ⟨hbuf, hout, hdir.symm⟩
  · rw [if_neg hdir, Nat.sub_zero]
    congr 1
    ext other
    rw [mem_allocatedBufs, mem_allocatedBufs, mem_cons]
    by_cases heq : other = buf
    · subst heq
      simp [Ne.symm hdir]
    · simp [heq]

end Counting

section Operations

variable {g g' : BufGlobals} {free : List ℕ} {waiting : Bool → List ℕ}
  {spare : List ℕ} {isIn : Bool}

section

variable (hrep : PoolRep g free waiting spare)

include hrep

theorem PoolRep.card : free.length + g.bufsAllocated false + g.bufsAllocated true =
      iobufPoolSize := by
  rw [hrep.count, hrep.count]
  exact allocatedBufs_card hrep.chain.nodup hrep.bound

theorem PoolRep.initialized : g.Initialized := by
  by_contra hnot
  rw [BufGlobals.Initialized, not_or, not_or, not_not, not_not, not_not] at hnot
  obtain ⟨hhead, hout, hin⟩ := hnot
  have hchain := hrep.chain
  rw [hhead, chain_none] at hchain
  have hcard := hrep.card
  rw [hchain, hout, hin] at hcard
  exact absurd hcard (by decide)

theorem PoolRep.allocated_pos {buf : ℕ} (hout : buf ∉ free) (hbuf : buf < iobufPoolSize) :
    0 < g.bufsAllocated (g.isInBuf buf) := by
  rw [hrep.count, Finset.card_pos]
  exact ⟨buf, mem_allocatedBufs.mpr ⟨hbuf, hout, rfl⟩⟩

end

theorem PoolRep.popFreeBuf
    {buf : ℕ} {rest : List ℕ} (hrep : PoolRep g (buf :: rest) waiting spare)
    (hroom : g.bufsAllocated isIn < bufsLimit) :
    PoolRep (popFreeBuf g isIn buf) rest waiting spare where
  chain := hrep.chain.2.update (nodup_cons.mp hrep.chain.nodup).1 none
  bound other hother := hrep.bound other (mem_cons_of_mem buf hother)
  count := by
    intro dir
    change update g.bufsAllocated isIn (g.bufsAllocated isIn + 1) dir =
      (allocatedBufs rest (update g.isInBuf buf isIn) dir).card
    rw [allocatedBufs_get hrep.chain.nodup
      (hrep.bound buf mem_cons_self) dir, ← hrep.count dir]
    by_cases hdir : dir = isIn
    · subst hdir
      rw [update_self, if_pos rfl]
    · rw [update_of_ne hdir, if_neg hdir]
      rfl
  limit := by
    intro dir
    change update g.bufsAllocated isIn (g.bufsAllocated isIn + 1) dir ≤ bufsLimit
    by_cases hdir : dir = isIn
    · subst hdir
      rw [update_self]
      exact hroom
    · rw [update_of_ne hdir]
      exact hrep.limit dir
  queues := hrep.queues
  spares := hrep.spares
  disjoint := hrep.disjoint
  unspare := hrep.unspare
  ring := hrep.ring

section

variable (hrep : PoolRep g free waiting spare)

include hrep

theorem PoolRep.not_mem_waiting {dir dir' : Bool} (hne : dir ≠ dir')
    {ent : ℕ} (hdir : ent ∈ waiting dir) :
    ent ∉ waiting dir' := by
  intro hdir'
  cases dir <;> cases dir'
  · exact hne rfl
  · exact hrep.disjoint ent hdir' hdir
  · exact hrep.disjoint ent hdir hdir'
  · exact hne rfl

theorem PoolRep.zbGetBuf (isIn : Bool) : (g.bufsAllocated isIn = bufsLimit ∧
        zbGetBuf g isIn = some (g, none)) ∨
      ∃ buf rest, free = buf :: rest ∧ g.bufsAllocated isIn < bufsLimit ∧
        zbGetBuf g isIn = some (Zboss.popFreeBuf g isIn buf, some buf) ∧
        PoolRep (Zboss.popFreeBuf g isIn buf) rest waiting spare := by
  unfold Zboss.zbGetBuf
  rw [if_pos hrep.initialized]
  by_cases hroom : g.bufsAllocated isIn < bufsLimit
  · right
    rw [if_pos hroom]
    cases free with
    | nil =>
      have hcard := hrep.card
      have hout := hrep.limit false
      have hin := hrep.limit true
      have hlimit : bufsLimit + bufsLimit = iobufPoolSize := rfl
      rw [length_nil] at hcard
      cases isIn <;> omega
    | cons buf rest =>
      refine ⟨buf, rest, rfl, hroom, ?_, hrep.popFreeBuf hroom⟩
      rw [hrep.chain.1]
  · left
    rw [if_neg hroom]
    exact ⟨Nat.le_antisymm (hrep.limit isIn) (Nat.le_of_not_lt hroom), rfl⟩

theorem PoolRep.zbScheduleCallback (func : ℕ) (param : Option ℕ) :
    PoolRep (zbScheduleCallback g func param).1 free waiting spare := by
  unfold Zboss.zbScheduleCallback
  split
  · exact hrep
  · rename_i hroom
    exact ⟨hrep.chain, hrep.bound, hrep.count, hrep.limit, hrep.queues,
      hrep.spares, hrep.disjoint, hrep.unspare,
      hrep.ring.put (Nat.lt_of_not_le hroom) _⟩

theorem PoolRep.pushFreeBuf {buf : ℕ} (hout : buf ∉ free) (hbuf : buf < iobufPoolSize) :
    PoolRep (pushFreeBuf g buf) (buf :: free) waiting spare where
  chain := hrep.chain.push hout
  bound := by
    intro other hother
    rcases mem_cons.mp hother with rfl | hother
    · exact hbuf
    · exact hrep.bound other hother
  count := by
    intro dir
    change update g.bufsAllocated (g.isInBuf buf)
        (g.bufsAllocated (g.isInBuf buf) - 1) dir =
      (allocatedBufs (buf :: free) g.isInBuf dir).card
    rw [allocatedBufs_free hout hbuf dir, ← hrep.count dir]
    by_cases hdir : dir = g.isInBuf buf
    · subst hdir
      rw [update_self, if_pos rfl]
    · rw [update_of_ne hdir, if_neg hdir, Nat.sub_zero]
  limit := by
    intro dir
    change update g.bufsAllocated (g.isInBuf buf)
      (g.bufsAllocated (g.isInBuf buf) - 1) dir ≤ bufsLimit
    by_cases hdir : dir = g.isInBuf buf
    · subst hdir
      rw [update_self]
      exact Nat.le_trans (Nat.sub_le _ _) (hrep.limit _)
    · rw [update_of_ne hdir]
      exact hrep.limit dir
  queues := hrep.queues
  spares := hrep.spares
  disjoint := hrep.disjoint
  unspare := hrep.unspare
  ring := hrep.ring

theorem PoolRep.cutWaiting (isIn : Bool) :
    (g.cutWaiting isIn).2 = (waiting isIn).head? ∧ PoolRep (g.cutWaiting isIn).1 free
        (update waiting isIn (waiting isIn).tail) spare := by
  obtain ⟨hhead, hqueue⟩ := (hrep.queues isIn).cutHead
  have hmem : ∀ dir ent, ent ∈ update waiting isIn (waiting isIn).tail dir →
        ent ∈ waiting dir := by
    intro dir ent hent
    by_cases hdir : dir = isIn
    · subst hdir
      rw [update_self] at hent
      exact mem_of_mem_tail hent
    · rwa [update_of_ne hdir] at hent
  refine ⟨hhead, ?_⟩
  constructor
  · exact hrep.chain
  · exact hrep.bound
  · exact hrep.count
  · exact hrep.limit
  · intro dir
    change ((update g.bufQueue isIn
      ((g.bufQueue isIn).cutHead g.delayedNext).2) dir).Holds g.delayedNext _
    by_cases hdir : dir = isIn
    · subst hdir
      rw [update_self, update_self]
      exact hqueue
    · rw [update_of_ne hdir, update_of_ne hdir]
      exact hrep.queues dir
  · exact hrep.spares
  · intro ent hin hout
    exact hrep.disjoint ent (hmem true ent hin) (hmem false ent hout)
  · intro dir ent hent
    exact hrep.unspare dir ent (hmem dir ent hent)
  · exact hrep.ring

theorem PoolRep.pushFreeEnt {ent : ℕ}
    (hwaiting : ∀ isIn, ent ∉ waiting isIn) (hspare : ent ∉ spare) :
    PoolRep (g.pushFreeEnt ent) free waiting (ent :: spare) := by
  constructor
  · exact hrep.chain
  · exact hrep.bound
  · exact hrep.count
  · exact hrep.limit
  · intro dir
    apply (hrep.queues dir).congr
    intro other hother
    apply update_of_ne
    rintro rfl
    exact hwaiting dir hother
  · exact hrep.spares.push hspare
  · exact hrep.disjoint
  · intro dir other hother hmem
    rcases mem_cons.mp hmem with rfl | hmem
    · exact hwaiting dir hother
    · exact hrep.unspare dir other hother hmem
  · exact hrep.ring

theorem PoolRep.insertWaiting {ent : ℕ}
    (hwaiting : ∀ isIn, ent ∉ waiting isIn) (hspare : ent ∉ spare)
    (isIn : Bool) :
    PoolRep (g.insertWaiting isIn ent) free
      (update waiting isIn (waiting isIn ++ [ent])) spare := by
  have hmem : ∀ dir other, other ∈ update waiting isIn (waiting isIn ++ [ent]) dir →
        other ∈ waiting dir ∨ (dir = isIn ∧ other = ent) := by
    intro dir other hother
    by_cases hdir : dir = isIn
    · subst hdir
      rw [update_self, mem_append, mem_singleton] at hother
      exact hother.imp_right fun heq => ⟨rfl, heq⟩
    · rw [update_of_ne hdir] at hother
      exact Or.inl hother
  have hothers : ∀ other, other ≠ ent → other ∉ waiting isIn →
      ((g.bufQueue isIn).insertTail g.delayedNext ent).2 other = g.delayedNext other :=
    fun other hne hout => (hrep.queues isIn).insertTail_of_notMem hne hout
  constructor
  · exact hrep.chain
  · exact hrep.bound
  · exact hrep.count
  · exact hrep.limit
  · intro dir
    change ((update g.bufQueue isIn
      ((g.bufQueue isIn).insertTail g.delayedNext ent).1) dir).Holds
        ((g.bufQueue isIn).insertTail g.delayedNext ent).2 _
    by_cases hdir : dir = isIn
    · subst hdir
      rw [update_self, update_self]
      exact (hrep.queues dir).insertTail (hwaiting dir)
    · rw [update_of_ne hdir, update_of_ne hdir]
      apply (hrep.queues dir).congr
      intro other hother
      apply hothers
      · rintro rfl
        exact hwaiting dir hother
      · exact hrep.not_mem_waiting hdir hother
  · apply hrep.spares.congr
    intro other hother
    apply hothers
    · rintro rfl
      exact hspare hother
    · intro hisIn
      exact hrep.unspare isIn other hisIn hother
  · intro other hin hout
    rcases hmem true other hin with hin' | ⟨htrue, heq⟩
    · rcases hmem false other hout with hout' | ⟨_, rfl⟩
      · exact hrep.disjoint other hin' hout'
      · exact hwaiting true hin'
    · rcases hmem false other hout with hout' | ⟨hfalse, _⟩
      · rw [heq] at hout'
        exact hwaiting false hout'
      · rw [← htrue] at hfalse
        exact Bool.false_ne_true hfalse
  · intro dir other hother
    rcases hmem dir other hother with hother | ⟨_, rfl⟩
    · exact hrep.unspare dir other hother
    · exact hspare
  · exact hrep.ring

end

theorem PoolRep.popFreeEnt
    {ent : ℕ} {rest : List ℕ} (hrep : PoolRep g free waiting (ent :: rest)) :
    PoolRep { g with bufFreelist := g.delayedNext ent } free waiting rest where
  chain := hrep.chain
  bound := hrep.bound
  count := hrep.count
  limit := hrep.limit
  queues := hrep.queues
  spares := hrep.spares.2
  disjoint := hrep.disjoint
  unspare isIn other hother hmem :=
    hrep.unspare isIn other hother (mem_cons_of_mem ent hmem)
  ring := hrep.ring

theorem PoolRep.setFunc (hrep : PoolRep g free waiting spare) (delayedFunc : ℕ → ℕ) :
    PoolRep { g with delayedFunc := delayedFunc } free waiting spare :=
  ⟨hrep.chain, hrep.bound, hrep.count, hrep.limit, hrep.queues, hrep.spares,
    hrep.disjoint, hrep.unspare, hrep.ring⟩

end Operations

/-! ## Requests which wait, and buffers given back -/

section Requests

variable {g : BufGlobals} {free : List ℕ} {waiting : Bool → List ℕ} {spare : List ℕ}

def ringPut (ring : RingBuf CbQEnt) (func : ℕ) (param : Option ℕ) :
    RingBuf CbQEnt :=
  if schedulerQSize ≤ ring.written then ring
  else ring.put schedulerQSize ⟨func, param⟩

theorem zbScheduleCallback_fst (g : BufGlobals) (func : ℕ) (param : Option ℕ) :
    (zbScheduleCallback g func param).1 = { g with cbQ := ringPut g.cbQ func param } := by
  unfold zbScheduleCallback ringPut
  split <;> rfl

theorem PoolRep.zbGetBufDelayed
    (hrep : PoolRep g free waiting spare) (callback : ℕ) (isIn : Bool) :
    (∃ buf rest g' ret, free = buf :: rest ∧ g.bufsAllocated isIn < bufsLimit ∧
        zbGetBufDelayed g callback isIn = some (g', ret) ∧
        PoolRep g' rest waiting spare ∧
        g'.bufsAllocated = update g.bufsAllocated isIn (g.bufsAllocated isIn + 1) ∧
        g'.cbQ = ringPut g.cbQ callback (some buf) ∧
        g'.rxNeedBuf = g.rxNeedBuf) ∨
      (∃ ent rest g', spare = ent :: rest ∧ g.bufsAllocated isIn = bufsLimit ∧
        zbGetBufDelayed g callback isIn = some (g', .ok ()) ∧
        PoolRep g' free (update waiting isIn (waiting isIn ++ [ent])) rest ∧
        g'.bufsAllocated = g.bufsAllocated ∧ g'.cbQ = g.cbQ ∧
        g'.rxNeedBuf = g.rxNeedBuf) ∨
      (g.bufsAllocated isIn = bufsLimit ∧
        zbGetBufDelayed g callback isIn = some (g, .error .error)) := by
  rcases hrep.zbGetBuf isIn with ⟨hfull, hget⟩ | ⟨buf, rest, hfree, hroom, hget, hrep'⟩
  · right
    cases spare with
    | nil =>
      right
      refine ⟨hfull, ?_⟩
      have hnone : g.bufFreelist = none := hrep.spares
      rw [Zboss.zbGetBufDelayed, hget, Option.bind_eq_bind, Option.bind_some]
      dsimp only
      rw [hnone]
    | cons ent rest =>
      left
      have hnodup := nodup_cons.mp hrep.spares.nodup
      have hwaiting : ∀ isIn, ent ∉ waiting isIn := by
        intro dir hent
        exact hrep.unspare dir ent hent mem_cons_self
      have hinsert := (hrep.popFreeEnt.setFunc
        (update g.delayedFunc ent callback)).insertWaiting hwaiting hnodup.1 isIn
      refine ⟨ent, rest, _, rfl, hfull, ?_, hinsert, rfl, rfl, rfl⟩
      rw [Zboss.zbGetBufDelayed, hget, Option.bind_eq_bind, Option.bind_some]
      dsimp only
      rw [hrep.spares.1]
  · left
    refine ⟨buf, rest, _, (Zboss.zbScheduleCallback (Zboss.popFreeBuf g isIn buf) callback
        (some buf)).2, hfree, hroom, ?_,
      hrep'.zbScheduleCallback callback (some buf), ?_, ?_, ?_⟩
    · rw [Zboss.zbGetBufDelayed, hget]
      rfl
    · rw [zbScheduleCallback_fst]
      rfl
    · rw [zbScheduleCallback_fst]
      rfl
    · rw [zbScheduleCallback_fst]
      rfl

theorem PoolRep.zbFreeBuf
    (hrep : PoolRep g free waiting spare) {buf : ℕ} (hout : buf ∉ free)
    (hbuf : buf < iobufPoolSize) :
    ((g.isInBuf buf = true ∧ g.rxNeedBuf = true ∨ waiting (g.isInBuf buf) = []) ∧
        ∃ g', zbFreeBuf g buf = some g' ∧ PoolRep g' (buf :: free) waiting spare ∧
          g'.bufsAllocated = update g.bufsAllocated (g.isInBuf buf)
            (g.bufsAllocated (g.isInBuf buf) - 1) ∧
          g'.cbQ = g.cbQ ∧ g'.rxNeedBuf = g.rxNeedBuf) ∨
      (¬ (g.isInBuf buf = true ∧ g.rxNeedBuf = true) ∧
        ∃ ent rest g', waiting (g.isInBuf buf) = ent :: rest ∧ zbFreeBuf g buf = some g' ∧
          PoolRep g' free (update waiting (g.isInBuf buf) rest) (ent :: spare) ∧
          g'.bufsAllocated = g.bufsAllocated ∧
          g'.cbQ = ringPut g.cbQ (g.delayedFunc ent) (some buf) ∧
          g'.rxNeedBuf = g.rxNeedBuf) := by
  have hpos := hrep.allocated_pos hout hbuf
  have hpushed := hrep.pushFreeBuf hout hbuf
  have hguard : g.Initialized ∧ g.bufsAllocated (g.isInBuf buf) ≠ 0 :=
    ⟨hrep.initialized, Nat.ne_zero_of_lt hpos⟩
  unfold Zboss.zbFreeBuf
  dsimp only
  rw [if_pos hguard]
  by_cases hneeded : g.isInBuf buf = true ∧ g.rxNeedBuf = true
  · left
    refine ⟨Or.inl hneeded, Zboss.pushFreeBuf g buf, ?_, hpushed, rfl, rfl, rfl⟩
    have hneeded' : g.isInBuf buf = true ∧
        (Zboss.pushFreeBuf g buf).rxNeedBuf = true := hneeded
    rw [if_pos hneeded']
  · have hneeded' : ¬ (g.isInBuf buf = true ∧
        (Zboss.pushFreeBuf g buf).rxNeedBuf = true) := hneeded
    rw [if_neg hneeded']
    obtain ⟨hhead, hcut⟩ := hpushed.cutWaiting (g.isInBuf buf)
    cases hwaiting : waiting (g.isInBuf buf) with
    | nil =>
      left
      rw [hwaiting, tail_nil, ← hwaiting, update_eq_self] at hcut
      rw [hwaiting, List.head?_nil] at hhead
      refine ⟨Or.inr rfl, _, ?_, hcut, rfl, rfl, rfl⟩
      rw [hhead]
    | cons ent rest =>
      right
      rw [hwaiting, tail_cons] at hcut
      rw [hwaiting, List.head?_cons] at hhead
      have hent : ∀ dir, ent ∉
          update waiting (g.isInBuf buf) rest dir := by
        intro dir hmem
        by_cases hdir : dir = g.isInBuf buf
        · have hnodup := (hrep.queues (g.isInBuf buf)).chain.nodup
          rw [hwaiting, nodup_cons] at hnodup
          rw [hdir, update_self] at hmem
          exact hnodup.1 hmem
        · rw [update_of_ne hdir] at hmem
          have hhere : ent ∈ waiting (g.isInBuf buf) := by
            rw [hwaiting]
            exact mem_cons_self
          exact hrep.not_mem_waiting hdir hmem hhere
      have hspare : ent ∉ spare := by
        apply hrep.unspare (g.isInBuf buf)
        rw [hwaiting]
        exact mem_cons_self
      have hroom : ((Zboss.pushFreeBuf g buf).cutWaiting
          (g.isInBuf buf)).1.bufsAllocated (g.isInBuf buf) < bufsLimit := by
        change update g.bufsAllocated (g.isInBuf buf)
          (g.bufsAllocated (g.isInBuf buf) - 1) (g.isInBuf buf) < bufsLimit
        rw [update_self]
        have hlimit := hrep.limit (g.isInBuf buf)
        omega
      rcases hcut.zbGetBuf (g.isInBuf buf) with ⟨hfull, _⟩ |
        ⟨buf', rest', hfree, _, hget, hgot⟩
      · exact absurd hroom (hfull ▸ Nat.lt_irrefl _)
      · obtain ⟨rfl, rfl⟩ := List.cons.inj hfree
        have hdone := (hgot.zbScheduleCallback (g.delayedFunc ent)
          (some buf)).pushFreeEnt hent hspare
        refine ⟨hneeded, ent, rest, _, rfl, ?_, hdone, ?_, ?_, ?_⟩
        · rw [hhead]
          dsimp only
          rw [hget]
          rfl
        · rw [BufGlobals.pushFreeEnt, zbScheduleCallback_fst]
          change update (update g.bufsAllocated (g.isInBuf buf)
              (g.bufsAllocated (g.isInBuf buf) - 1)) (g.isInBuf buf)
            (update g.bufsAllocated (g.isInBuf buf)
              (g.bufsAllocated (g.isInBuf buf) - 1) (g.isInBuf buf) + 1) =
              g.bufsAllocated
          rw [update_self, Nat.sub_add_cancel hpos, update_idem, update_eq_self]
        · rw [BufGlobals.pushFreeEnt, zbScheduleCallback_fst]
          rfl
        · rw [BufGlobals.pushFreeEnt, zbScheduleCallback_fst]
          rfl

end Requests

theorem zbSchedInit_chain (g : BufGlobals) (hfree : g.bufFreelist = none) (n : ℕ) :
    Chain (zbSchedInit g n).delayedNext (zbSchedInit g n).bufFreelist
      (List.range n).reverse := by
  induction n with
  | zero => exact hfree
  | succ n ih =>
    rw [range_succ, reverse_append, reverse_singleton, singleton_append]
    exact ih.push (by simp)

theorem zbSchedInit_others (g : BufGlobals) (n : ℕ) : zbSchedInit g n =
      { g with
        delayedNext := (zbSchedInit g n).delayedNext
        bufFreelist := (zbSchedInit g n).bufFreelist } := by
  induction n with
  | zero => rfl
  | succ n ih => rw [zbSchedInit, BufGlobals.pushFreeEnt, ih]

theorem chain_zbInitBuffers (next : ℕ → Option ℕ) (n i : ℕ) (hn : i + n = iobufPoolSize) :
    Chain (fun i =>
        if i < iobufPoolSize - 1 then some (i + 1)
        else if i = iobufPoolSize - 1 then none
        else next i)
      (if i < iobufPoolSize then some i else none) (List.range' i n) := by
  induction n generalizing i with
  | zero => exact if_neg (by omega)
  | succ n ih =>
    refine ⟨if_pos (by omega), ?_⟩
    have hrest := ih (i + 1) (by omega)
    dsimp only
    by_cases hlast : i < iobufPoolSize - 1
    · rw [if_pos (show i + 1 < iobufPoolSize by omega)] at hrest
      rw [if_pos hlast]
      exact hrest
    · rw [if_neg (show ¬ i + 1 < iobufPoolSize by omega)] at hrest
      rw [if_neg hlast, if_pos (by omega)]
      exact hrest

theorem poolRep_start : PoolRep BufState.start.g (List.range iobufPoolSize) (fun _ => [])
      (List.range bufQSize).reverse := by
  have hspares := zbSchedInit_chain .zeroed rfl bufQSize
  have hothers := zbSchedInit_others .zeroed bufQSize
  change PoolRep (zbInitBuffers (zbSchedInit .zeroed bufQSize)) _ _ _
  generalize zbSchedInit .zeroed bufQSize = g at hspares hothers
  have hhead : g.head = none := by
    rw [hothers]
    rfl
  rw [zbInitBuffers, if_neg (fun hne => hne hhead)]
  constructor
  · have hchain := chain_zbInitBuffers g.bufNext iobufPoolSize 0 rfl
    rw [← range_eq_range'] at hchain
    exact hchain
  · intro buf hbuf
    exact mem_range.mp hbuf
  · intro isIn
    have hempty : allocatedBufs (List.range iobufPoolSize) g.isInBuf isIn = ∅ := by
      ext buf
      rw [mem_allocatedBufs, mem_range]
      simpa using fun hlt hge => absurd hlt (Nat.not_lt_of_le hge)
    dsimp only
    rw [hempty, hothers]
    rfl
  · intro isIn
    dsimp only
    rw [hothers]
    exact Nat.zero_le _
  · intro isIn
    dsimp only
    rw [hothers]
    exact Queue.holds_empty _
  · exact hspares
  · intro ent hent
    exact absurd hent not_mem_nil
  · intro isIn ent hent
    exact absurd hent not_mem_nil
  · dsimp only
    rw [hothers]
    exact ⟨Nat.zero_lt_succ _, Nat.zero_le _, rfl⟩

end Zboss
