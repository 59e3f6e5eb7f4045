import Mathlib.Data.Fintype.Card
import Zboss.DoublyLinked
import Zboss.TransitionSystem

/-!
# Pooled singly linked lists

The macros `ZB_POOLED_SL_LIST8_*` for a pool of at most 255 elements, whose
indices are links; `ZP_POOLED_SL_LIST8_NULL` is `none`.
-/

namespace Zboss

open Option DoublyLinked LinkedChain TransitionSystem

/-- The names of the fields and of the two variables, as the macros paste them.
-/
structure PooledSlList (size : ℕ) where
  head : Option (Fin size)
  tail : Option (Fin size)
  next : Fin size → Option (Fin size)

namespace PooledSlList

variable {size : ℕ}

def queue (list : PooledSlList size) : Queue (Fin size) :=
  ⟨list.head, list.tail⟩

/-- The test reads `head + 1 == ZP_POOLED_SL_LIST8_NULL`, where `head` is
promoted to `int`. -/
def insertHead (list : PooledSlList size) (index : Fin size) : PooledSlList size where
  head := some index
  tail := if (list.head.elim 255 Fin.val) + 1 = 255 then some index else list.tail
  next := Function.update list.next index list.head

def insertTail (list : PooledSlList size) (index : Fin size) :
    PooledSlList size :=
  let (queue, next) := list.queue.insertTail list.next index
  ⟨queue.head, queue.tail, next⟩

def cutHead (list : PooledSlList size) :
    Option (Fin size) × PooledSlList size :=
  let (index, queue) := list.queue.cutHead list.next
  (index, ⟨queue.head, queue.tail, list.next⟩)

def unlink (list : PooledSlList size) (prev : Option (Fin size)) (p : Fin size) :
    PooledSlList size :=
  let list :=
    match prev with
    | some prev =>
        { list with
          next := Function.update list.next prev (list.next p)
          tail := if list.tail = some p then some prev else list.tail }
    | none => { list with head := list.next p }
  if list.head = none then { list with tail := none } else list

def removeLoop (list : PooledSlList size) (index : Option (Fin size)) :
    ℕ → Option (Fin size) → Option (Fin size) → Option (PooledSlList size)
  | _, _, none => some list
  | 0, _, some _ => none
  | fuel + 1, prev, some p =>
      if some p = index then some (list.unlink prev p)
      else list.removeLoop index fuel (some p) (list.next p)

def remove (list : PooledSlList size) (index : Option (Fin size)) :
    Option (PooledSlList size) :=
  list.removeLoop index size none list.head

def cutTail (list : PooledSlList size) : Option (PooledSlList size) :=
  list.remove list.tail

end PooledSlList

inductive SlListCall (size : ℕ) where
  | insertHead (index : Fin size)
  | insertTail (index : Fin size)
  | cutHead
  | removeHead
  | cutTail
  | remove (index : Fin size)

structure SlListRun (size : ℕ) where
  list : PooledSlList size
  expected : List (Fin size)

namespace SlListRun

variable {size : ℕ}

/-- An element is inserted only if it is not in the list. -/
def step (run : SlListRun size) : SlListCall size → Option (SlListRun size)
  | .insertHead index =>
      if index ∈ run.expected then none
      else some ⟨run.list.insertHead index, index :: run.expected⟩
  | .insertTail index =>
      if index ∈ run.expected then none
      else some ⟨run.list.insertTail index, run.expected ++ [index]⟩
  | .cutHead | .removeHead => some ⟨run.list.cutHead.2, run.expected.tail⟩
  | .cutTail => run.list.cutTail.map fun list => ⟨list, run.expected.dropLast⟩
  | .remove index =>
      (run.list.remove (some index)).map fun list => ⟨list, run.expected.erase index⟩

def start (next : Fin size → Option (Fin size)) : SlListRun size :=
  ⟨⟨none, none, next⟩, []⟩

/-- `head` and `tail` describe the sequence: the links lead from the first
element through all of them, the last one is `tail`, and the loops end. -/
structure Describes (run : SlListRun size) : Prop where
  chain : Chain run.list.next run.list.head run.expected
  tail : run.list.tail = run.expected.getLast?
  ends : run.list.head = none ↔ run.list.tail = none
  removes : ∀ index, (run.step (.remove index)).isSome
  cuts : (run.step .cutTail).isSome

/-- An element is not inserted before nothing, and not before the element 254.
-/
def KeepsTail (run : SlListRun size) : SlListCall size → Prop
  | .insertHead index =>
      index ∉ run.expected → ∃ head rest, run.expected = head :: rest ∧ head.val ≠ 254
  | _ => True

variable {run next : SlListRun size} {list : PooledSlList size}
  {nodes before after : List (Fin size)} {index : Fin size}

theorem unlink_head (hholds : list.queue.Holds list.next (index :: after)) :
    (list.unlink none index).queue.Holds (list.unlink none index).next
      after := by
  have hafter := hholds.chain.2
  rw [PooledSlList.unlink]
  dsimp only
  cases after with
  | nil =>
    have hnext : list.next index = none := hafter
    rw [if_pos hnext]
    exact ⟨hnext, rfl⟩
  | cons second rest =>
    have hnext : list.next index ≠ none :=
      fun hnone => some_ne_none second (hafter.1.symm.trans hnone)
    rw [if_neg hnext]
    exact ⟨hafter, hholds.tail.trans List.getLast?_cons_cons⟩

theorem unlink_after {prev : Fin size}
    (hholds : list.queue.Holds list.next (before ++ prev :: index :: after)) :
    (list.unlink (some prev) index).queue.Holds
      (list.unlink (some prev) index).next (before ++ prev :: after) := by
  have hchain := chain_unlink hholds.chain
  have htail : list.tail = (prev :: index :: after).getLast? :=
    hholds.tail.trans (getLast?_append_cons ..)
  have hnodup := (List.nodup_append.mp hholds.chain.nodup).2.1
  have hhead : list.head ≠ none := by
    intro hnone
    have hwhole := hholds.chain
    rw [show list.queue.head = none from hnone] at hwhole
    simpa using chain_none.mp hwhole
  rw [PooledSlList.unlink, if_neg hhead]
  refine ⟨hchain, ?_⟩
  dsimp only [PooledSlList.queue]
  rw [htail, getLast?_append_cons, List.getLast?_cons_cons]
  cases hafter : after.getLast? with
  | none =>
    obtain rfl := List.getLast?_eq_none_iff.mp hafter
    rw [List.getLast?_singleton, if_pos rfl, List.getLast?_singleton]
  | some last =>
    have hlast : (index :: after).getLast? = some last := by
      rw [List.getLast?_cons, hafter, getD_some]
    have hne : last ≠ index := by
      rintro rfl
      exact (List.nodup_cons.mp (List.nodup_cons.mp hnodup).2).1
        (List.mem_of_getLast? hafter)
    rw [hlast, if_neg fun heq => hne (some.inj heq), List.getLast?_cons, hafter, getD_some]

/-- By induction on the elements from `p` on. -/
theorem removeLoop_spec {fuel : ℕ} (hholds : list.queue.Holds list.next (before ++ after))
    (hbefore : index ∉ before) (hfuel : after.length ≤ fuel) :
    ∃ list', list.removeLoop (some index) fuel before.getLast? after.head? = some list' ∧
      list'.queue.Holds list'.next (before ++ after.erase index) := by
  induction after generalizing before fuel with
  | nil => exact ⟨list, by cases fuel <;> rfl, hholds⟩
  | cons p rest ih =>
    obtain _ | fuel := fuel
    · exact absurd hfuel (Nat.not_succ_le_zero _)
    rw [List.head?_cons, PooledSlList.removeLoop]
    by_cases hp : p = index
    · subst hp
      rw [if_pos rfl, List.erase_cons_head]
      refine ⟨_, rfl, ?_⟩
      rcases List.eq_nil_or_concat before with rfl | ⟨start, prev, rfl⟩
      · exact unlink_head hholds
      · rw [List.concat_eq_append, List.append_assoc] at hholds ⊢
        rw [List.getLast?_concat]
        exact unlink_after hholds
    · have hnext : list.next p = rest.head? := by
        have hrest := hholds.chain.drop.2
        cases rest with
        | nil => exact hrest
        | cons q _ => exact hrest.1
      rw [if_neg fun heq => hp (some.inj heq), hnext,
        List.erase_cons_tail (by simpa using hp)]
      rw [← List.singleton_append, ← List.append_assoc] at hholds ⊢
      have hstep := ih hholds (by simpa using ⟨hbefore, Ne.symm hp⟩)
        (Nat.le_of_succ_le_succ hfuel)
      rwa [List.getLast?_concat] at hstep

theorem head_eq (hholds : run.list.queue.Holds run.list.next run.expected) :
    run.list.head = run.expected.head? := by
  have hchain := hholds.chain
  cases hexpected : run.expected with
  | nil =>
    rw [hexpected] at hchain
    exact hchain
  | cons head rest =>
    rw [hexpected] at hchain
    exact hchain.1

theorem remove_spec (hholds : run.list.queue.Holds run.list.next run.expected)
    (index : Fin size) :
    ∃ list, run.list.remove (some index) = some list ∧
      list.queue.Holds list.next (run.expected.erase index) := by
  have hlength : run.expected.length ≤ size :=
    hholds.chain.nodup.length_le_card.trans_eq (Fintype.card_fin size)
  have hwhole : run.list.queue.Holds run.list.next ([] ++ run.expected) := hholds
  rw [PooledSlList.remove, head_eq hholds]
  exact removeLoop_spec hwhole List.not_mem_nil hlength

theorem cutTail_spec (hholds : run.list.queue.Holds run.list.next run.expected) :
    ∃ list, run.list.cutTail = some list ∧
      list.queue.Holds list.next run.expected.dropLast := by
  have htail : run.list.tail = run.expected.getLast? := hholds.tail
  rw [PooledSlList.cutTail, htail]
  rcases List.eq_nil_or_concat run.expected with hnil | ⟨start, last, hlast⟩
  · rw [PooledSlList.remove, head_eq hholds, hnil]
    rw [hnil] at hholds
    exact ⟨run.list, by cases size <;> rfl, hholds⟩
  · obtain ⟨list, hremove, hlist⟩ := remove_spec hholds last
    rw [List.concat_eq_append] at hlast
    have hnodup := hholds.chain.nodup
    rw [hlast] at hnodup hlist ⊢
    have hnew : last ∉ start := fun hmem =>
      (List.nodup_append.mp hnodup).2.2 last hmem last List.mem_cons_self rfl
    rw [List.erase_append_right _ hnew, List.erase_cons_head, List.append_nil] at hlist
    rw [List.getLast?_concat, List.dropLast_concat]
    exact ⟨list, hremove, hlist⟩

theorem describes_iff :
    run.Describes ↔ run.list.queue.Holds run.list.next run.expected := by
  constructor
  · exact fun hdescribes => ⟨hdescribes.chain, hdescribes.tail⟩
  · intro hholds
    refine ⟨hholds.chain, hholds.tail, ?_, fun index => ?_, ?_⟩
    · have htail : run.list.tail = run.expected.getLast? := hholds.tail
      rw [head_eq hholds, htail, List.head?_eq_none_iff, List.getLast?_eq_none_iff]
    · obtain ⟨list, hremove, -⟩ := remove_spec hholds index
      rw [step, hremove]
      rfl
    · obtain ⟨list, hcut, -⟩ := cutTail_spec hholds
      rw [step, hcut]
      rfl

theorem describes_insertHead_iff (hdescribes : run.Describes)
    (hindex : index ∉ run.expected) :
    Describes ⟨run.list.insertHead index, index :: run.expected⟩ ↔
      ∃ head rest, run.expected = head :: rest ∧ head.val ≠ 254 := by
  have hholds := describes_iff.mp hdescribes
  have hchain : Chain (run.list.insertHead index).next (some index)
      (index :: run.expected) := hholds.chain.push hindex
  cases hexpected : run.expected with
  | nil =>
    have hhead : run.list.head = none := by
      rw [head_eq hholds, hexpected]
      rfl
    have htail : run.list.tail = none := by
      rw [hdescribes.tail, hexpected]
      rfl
    refine iff_of_false (fun hnext => ?_) (by simp)
    have hlast := hnext.tail
    rw [PooledSlList.insertHead, hhead, htail] at hlast
    contradiction
  | cons head rest =>
    rw [hexpected] at hindex hchain
    have hhead : run.list.head = some head := by
      rw [head_eq hholds, hexpected]
      rfl
    have htail : run.list.tail = (head :: rest).getLast? := hexpected ▸ hdescribes.tail
    have hsecond : (index :: head :: rest).getLast? =
        (head :: rest).getLast? := List.getLast?_cons_cons
    have hnew : (run.list.insertHead index).tail =
        if head.val = 254 then some index else run.list.tail := by
      rw [PooledSlList.insertHead, hhead]
      simp
    constructor
    · intro hnext
      refine ⟨head, rest, rfl, fun heq => hindex ?_⟩
      have hlast := hnext.tail
      dsimp only at hlast
      rw [hnew, if_pos heq, hsecond] at hlast
      exact List.mem_of_getLast? hlast.symm
    · rintro ⟨_, _, heq, hne⟩
      obtain ⟨rfl, rfl⟩ := List.cons.inj heq
      refine describes_iff.mpr ⟨hchain, ?_⟩
      exact (hnew.trans (if_neg hne)).trans (htail.trans hsecond.symm)

theorem describes_step_iff (hdescribes : run.Describes) (call : SlListCall size) :
    (∀ next, run.step call = some next → next.Describes) ↔ run.KeepsTail call := by
  have hholds := describes_iff.mp hdescribes
  cases call with
  | insertHead index =>
    rw [step, KeepsTail]
    split
    · rename_i hmem
      exact iff_of_true nofun fun hnew => absurd hmem hnew
    · rename_i hnew
      rw [← describes_insertHead_iff hdescribes hnew]
      exact ⟨fun hnext _ => hnext _ rfl, fun hlist _ heq => some.inj heq ▸ hlist hnew⟩
  | insertTail index =>
    refine iff_of_true (fun next hstep => ?_) trivial
    rw [step] at hstep
    split at hstep
    · contradiction
    · rename_i hnew
      obtain rfl := some.inj hstep
      exact describes_iff.mpr (hholds.insertTail hnew)
  | cutHead | removeHead =>
    refine iff_of_true (fun next hstep => ?_) trivial
    obtain rfl := some.inj hstep
    exact describes_iff.mpr hholds.cutHead.2
  | cutTail =>
    refine iff_of_true (fun next hstep => ?_) trivial
    obtain ⟨list, hcut, hlist⟩ := cutTail_spec hholds
    rw [step, hcut] at hstep
    exact some.inj hstep ▸ describes_iff.mpr hlist
  | remove index =>
    refine iff_of_true (fun next hstep => ?_) trivial
    obtain ⟨list, hremove, hlist⟩ := remove_spec hholds index
    rw [step, hremove] at hstep
    exact some.inj hstep ▸ describes_iff.mpr hlist

/-- In every run, the list describes the expected sequence exactly if no element
is inserted at the head of an empty list or of one which begins with 254. -/
theorem everyState_describes_iff (next : Fin size → Option (Fin size))
    (calls : List (SlListCall size)) :
    EveryState step Describes (start next) calls ↔
      AlongRun step KeepsTail (start next) calls :=
  everyState_iff_alongRun
    (fun _ call hdescribes (_ : True) => describes_step_iff hdescribes call)
    (fun _ _ _ _ _ _ _ => trivial)
    (describes_iff.mpr (Queue.holds_empty next)) trivial

/-- The tail is still null after the first insertion, so that the second one
loses the element. -/
theorem not_everyState_describes_emptyList :
    (TransitionSystem.run step (start fun _ => none)
        [.insertHead (0 : Fin 2), .insertTail 1]).map
          (fun run => (run.list.head, run.expected)) =
        some (some 1, [0, 1]) ∧
      ¬ ∀ size (next : Fin size → Option (Fin size)) calls,
        EveryState step Describes (start next) calls := by
  have hend : ∃ last, TransitionSystem.run step (start fun _ => none)
      [.insertHead (0 : Fin 2), .insertTail 1] = some last ∧
        last.list.head = some 1 ∧ last.expected = [0, 1] :=
    ⟨_, rfl, rfl, rfl⟩
  refine ⟨by decide, fun hevery => ?_⟩
  obtain ⟨last, hrun, hhead, hexpected⟩ := hend
  have hchain := ((hevery 2 _ _).last hrun).chain
  rw [hhead, hexpected] at hchain
  exact absurd hchain.1 (by decide)

end SlListRun

end Zboss
