import Mathlib.Data.Fintype.Card
import Zboss.DoublyLinked
import Zboss.TransitionSystem

/-!
# Pooled doubly linked lists

The macros `ZB_POOLED_LIST8_*` and `ZB_POOLED_LIST16_*` for the elements of a
pool, whose indices are links; `ZP_NULL8` and `ZP_NULL16`, which are no indices
of a pool, are `none`. The macros of both widths are the same text.
-/

namespace DoublyLinked

open LinkedChain

variable {α : Type*} {list list' : DList α} {nodes before after : List α} {x y : α}

/-- The indices which a loop visits, `none` if it takes more than `fuel` rounds
or uses a null link. -/
def visits (advance : α → Option (Option α)) : ℕ → Option α → Option (List α)
  | _, none => some []
  | 0, some _ => none
  | fuel + 1, some x => do
      let next ← advance x
      let rest ← visits advance fuel next
      some (x :: rest)

theorem visits_next {next : α → Option α} {start : Option α} {fuel : ℕ}
    (hchain : Chain next start nodes) (hfuel : nodes.length ≤ fuel) :
    visits (fun x => some (next x)) fuel start = some nodes := by
  induction nodes generalizing start fuel with
  | nil =>
    rw [show start = none from hchain]
    cases fuel <;> rfl
  | cons x rest ih =>
    obtain _ | fuel := fuel
    · exact absurd hfuel (Nat.not_succ_le_zero _)
    rw [hchain.1, visits]
    simp only [Option.bind_eq_bind, Option.bind_some,
      ih hchain.2 (Nat.le_of_succ_le_succ hfuel)]

theorem DList.Holds.mem_of_next (hholds : list.Holds nodes) (hx : x ∈ nodes)
    (hnext : list.next x = some y) : y ∈ nodes := by
  obtain ⟨before, after, rfl⟩ := List.append_of_mem hx
  rw [hholds.next_eq] at hnext
  have hy := List.mem_of_head? hnext
  exact List.mem_append_right _ (List.mem_cons_of_mem _ hy)

theorem DList.Holds.head_mem (hholds : list.Holds nodes)
    (hhead : list.head = some y) : y ∈ nodes :=
  List.mem_of_head? (hholds.head_eq.symm.trans hhead)

section Update

variable [DecidableEq α]

def DList.removeTail (list : DList α) : Option (DList α) :=
  match list.head with
  | none => some list
  | some head =>
      if list.prev head = some head then
        some ⟨none, list.next, Function.update list.prev head none⟩
      else do
        let last ← list.prev head
        let preceding ← list.prev last
        let next := Function.update list.next preceding none
        let next := Function.update next last (list.prev last)
        let prev := Function.update list.prev last none
        some ⟨some head, next, Function.update prev head (next last)⟩

theorem DList.Holds.removeTail (hholds : list.Holds (before ++ [x])) :
    ∃ list', list.removeTail = some list' ∧ list'.Holds before ∧ list'.prev x = none ∧
        ∀ y, y ∉ before ++ [x] → list'.prev y = list.prev y := by
  have hx : x ∉ before := by
    have hnodup := hholds.nodup
    simp only [List.nodup_append, List.mem_singleton] at hnodup
    exact fun hmem => hnodup.2.2 x hmem x rfl rfl
  have hhead := hholds.head_eq
  have htail : list.head.bind list.prev = some x :=
    hholds.tail_eq.trans List.getLast?_concat
  have hprev : list.prev x = before.getLast?.or (some x) := hholds.prev_eq
  unfold DList.removeTail
  cases before with
  | nil =>
    rw [hhead] at htail ⊢
    dsimp only [List.nil_append, List.head?_cons, Option.bind_some] at htail ⊢
    rw [if_pos htail]
    refine ⟨_, rfl, ⟨rfl, trivial⟩, Function.update_self _ _ _, ?_⟩
    exact fun y hy => Function.update_of_ne (by simpa using hy) _ _
  | cons head rest =>
    rw [hhead] at htail ⊢
    obtain ⟨start, preceding, hconcat⟩ :=
      (List.eq_nil_or_concat (head :: rest)).resolve_left (List.cons_ne_nil _ _)
    rw [List.concat_eq_append] at hconcat
    dsimp only [List.cons_append, List.head?_cons, Option.bind_some] at htail hprev ⊢
    rw [hconcat, List.getLast?_concat] at hprev
    have hne : x ≠ head := fun heq => hx (heq ▸ List.mem_cons_self)
    rw [htail, if_neg fun heq => hne (Option.some.inj heq)]
    simp only [Option.bind_eq_bind, Option.bind_some, hprev,
      Option.or_some, Option.getD_some]
    have hpreceding : preceding ≠ x := by
      rintro rfl
      exact hx (hconcat ▸ by simp)
    have hchain := hholds.chain
    rw [hconcat, List.append_assoc] at hchain
    have hunlink := chain_unlink hchain
    rw [← hconcat] at hunlink
    have hnext : list.next x = none := hholds.next_eq
    rw [hnext] at hunlink
    have hrest := (List.nodup_append.mp hholds.nodup).1
    have hlast : (head :: rest).getLast? = some preceding := by
      rw [hconcat, List.getLast?_concat]
    have hback :=
      ((backLinks_append.mp hholds.back).1.update hx none).updateFirst
      (List.nodup_cons.mp hrest).1 (some preceding)
    rw [hhead] at hunlink
    refine ⟨_, rfl, ⟨hunlink.update hx _, ?_⟩, ?_, fun y hy => ?_⟩
    · dsimp only
      rw [Function.update_self, hlast]
      exact hback
    · dsimp only
      rw [Function.update_of_ne hne, Function.update_self]
    · have hnothead : y ≠ head := fun heq => hy (heq ▸ List.mem_cons_self)
      have hnotlast : y ≠ x := fun heq => hy (heq ▸ by simp)
      dsimp only
      rw [Function.update_of_ne hnothead, Function.update_of_ne hnotlast]

/-! ## The previous links of other nodes -/

theorem DList.insertHead_prev (hx : y ≠ x) (hhead : list.head ≠ some y) :
    (list.insertHead x).prev y = list.prev y := by
  unfold DList.insertHead
  split
  · rename_i head hsome
    have hne : y ≠ head := fun heq => hhead (heq ▸ hsome)
    exact (Function.update_of_ne hne _ _).trans (Function.update_of_ne hx _ _)
  · exact Function.update_of_ne hx _ _

theorem DList.insertTail_prev (hinsert : list.insertTail x = some list')
    (hx : y ≠ x) (hhead : list.head ≠ some y) : list'.prev y = list.prev y := by
  unfold DList.insertTail at hinsert
  split at hinsert
  · rename_i head hsome
    have hne : y ≠ head := fun heq => hhead (heq ▸ hsome)
    obtain ⟨last, -, heq⟩ := Option.bind_eq_some_iff.mp hinsert
    obtain rfl := Option.some.inj heq
    exact (Function.update_of_ne hne _ _).trans (Function.update_of_ne hx _ _)
  · obtain rfl := Option.some.inj hinsert
    exact Function.update_of_ne hx _ _

theorem DList.Holds.insertAfter_prev {ent : α} (hholds : list.Holds nodes)
    (hent : ent ∈ nodes) (hnew : x ∉ nodes)
    (hinsert : list.insertAfter ent x = some list')
    (hx : y ≠ x) (hy : y ∉ nodes) : list'.prev y = list.prev y := by
  unfold DList.insertAfter at hinsert
  split at hinsert
  · exact insertTail_prev hinsert hx fun hhead => hy (hholds.head_mem hhead)
  · obtain ⟨following, hnext, heq⟩ := Option.bind_eq_some_iff.mp hinsert
    obtain rfl := Option.some.inj heq
    have hne : ent ≠ x := fun heq => hnew (heq ▸ hent)
    rw [Function.update_of_ne hne] at hnext
    have hfollowing : y ≠ following := fun heq =>
      hy (hholds.mem_of_next hent (hnext.trans (congrArg some heq.symm)))
    exact (Function.update_of_ne hfollowing _ _).trans (Function.update_of_ne hx _ _)

theorem DList.Holds.cutHead_prev (hholds : list.Holds nodes) (hy : y ∉ nodes) :
    list.cutHead.2.prev y = list.prev y := by
  have hne : ∀ z ∈ nodes, y ≠ z := fun z hz heq => hy (heq ▸ hz)
  unfold DList.cutHead
  split
  · rename_i head hhead
    have hmem := hholds.head_mem hhead
    refine (Function.update_of_ne (hne _ hmem) _ _).trans ?_
    cases hnext : list.next head with
    | some following =>
      exact Function.update_of_ne (hne _ (hholds.mem_of_next hmem hnext)) _ _
    | none => rfl
  · rfl

theorem DList.remove_prev (hremove : list.remove x = some list') :
    list'.prev x = none ∧ ∀ y, y ≠ x → list.next x ≠ some y →
      list.head ≠ some y → list'.prev y = list.prev y := by
  have hcleared : ∀ prev : α → Option α, ((if list.head = some x then
        some ⟨list.next x, list.next, Function.update prev x none⟩
      else (prev x).bind fun preceding => some
        ⟨list.head, Function.update list.next preceding (list.next x),
          Function.update prev x none⟩) : Option (DList α)) = some list' →
      list'.prev = Function.update prev x none := by
    intro prev hprev
    split at hprev
    · exact Option.some.inj hprev ▸ rfl
    · obtain ⟨_, -, heq⟩ := Option.bind_eq_some_iff.mp hprev
      exact Option.some.inj heq ▸ rfl
  unfold DList.remove at hremove
  split at hremove
  · rename_i hnone
    obtain rfl := Option.some.inj hremove
    exact ⟨hnone, fun _ _ _ _ => rfl⟩
  · cases hnext : list.next x with
    | some following =>
      rw [hnext] at hcleared hremove
      rw [hcleared (Function.update list.prev following (list.prev x)) hremove]
      refine ⟨Function.update_self _ _ _, fun y hx hfollowing _ => ?_⟩
      rw [Function.update_of_ne hx, Function.update_of_ne]
      exact fun heq => hfollowing (congrArg some heq.symm)
    | none =>
      rw [hnext] at hcleared hremove
      obtain ⟨head, hhead, hprev⟩ := Option.bind_eq_some_iff.mp hremove
      rw [hcleared (Function.update list.prev head (list.prev x)) hprev]
      refine ⟨Function.update_self _ _ _, fun y hx _ hnothead => ?_⟩
      rw [Function.update_of_ne hx, Function.update_of_ne]
      exact fun heq => hnothead (hhead.trans (congrArg some heq.symm))

end Update

end DoublyLinked

namespace Zboss

open DoublyLinked LinkedChain TransitionSystem

variable {size : ℕ}

namespace PooledList

/-- `ZB_POOLED_LIST8_ITERATE` -/
def iterate (list : DList (Fin size)) : Option (List (Fin size)) :=
  visits (fun index => some (list.next index)) size list.head

def back (list : DList (Fin size)) (index : Fin size) :
    Option (Option (Fin size)) := do
  let prev ← list.prev index
  some (if list.next prev ≠ none then list.prev index else none)

/-- `ZB_POOLED_LIST8_ITERATE_BACK`, which starts with `( list ) ?`: the null
link is true, and `base[ ZP_NULL8 ]` is behind the pool. -/
def iterateBack (list : DList (Fin size)) : Option (List (Fin size)) := do
  let head ← list.head
  if head.val ≠ 0 then visits (back list) size (list.prev head)
  else visits (back list) size none

end PooledList

inductive PooledListCall (size : ℕ) where
  | insertHead (index : Fin size)
  | insertTail (index : Fin size)
  | insertAfter (index newIndex : Fin size)
  | cutHead (removed : Option (Fin size))
  | removeHead
  | removeTail
  | remove (index : Fin size)

def PooledListCall.exec (list : DList (Fin size)) :
    PooledListCall size → Option (DList (Fin size))
  | .insertHead index => some (list.insertHead index)
  | .insertTail index => list.insertTail index
  | .insertAfter index newIndex => list.insertAfter index newIndex
  | .cutHead removed => if removed ≠ none then some list.cutHead.2 else none
  | .removeHead => some list.cutHead.2
  | .removeTail => list.removeTail
  | .remove index => list.remove index

/-- A list with the sequence which it is to represent, and the elements which
have been removed and not inserted again. -/
structure PooledListRun (size : ℕ) where
  list : DList (Fin size)
  expected : List (Fin size)
  removed : List (Fin size)

namespace PooledListRun

/-- An element is inserted if it is not in the list, behind one which is, and
removed if it is or has been. -/
def Legal (run : PooledListRun size) : PooledListCall size → Prop
  | .insertHead index | .insertTail index => index ∉ run.expected
  | .insertAfter index newIndex => index ∈ run.expected ∧ newIndex ∉ run.expected
  | .cutHead removed => removed ≠ none
  | .removeHead | .removeTail => True
  | .remove index => index ∈ run.expected ∨ index ∈ run.removed

instance (run : PooledListRun size) (call : PooledListCall size) :
    Decidable (run.Legal call) := by
  unfold Legal
  split <;> infer_instance

def expect (expected : List (Fin size)) : PooledListCall size → List (Fin size)
  | .insertHead index => index :: expected
  | .insertTail index => expected ++ [index]
  | .insertAfter index newIndex =>
      expected.flatMap fun other => if other = index then [index, newIndex] else [other]
  | .cutHead _ | .removeHead => expected.tail
  | .removeTail => expected.dropLast
  | .remove index => expected.erase index

/-- The elements which are out of the list by removal after the call. -/
def remember (run : PooledListRun size) : PooledListCall size → List (Fin size)
  | .insertHead index | .insertTail index | .insertAfter _ index =>
      run.removed.filter fun other => other ≠ index
  | .cutHead _ | .removeHead => run.expected.head?.toList ++ run.removed
  | .removeTail => run.expected.getLast?.toList ++ run.removed
  | .remove index => index :: run.removed

def step (run : PooledListRun size) (call : PooledListCall size) :
    Option (PooledListRun size) :=
  if run.Legal call then
    (call.exec run.list).map fun list =>
      ⟨list, expect run.expected call, run.remember call⟩
  else none

def start (next prev : Fin size → Option (Fin size)) : PooledListRun size :=
  ⟨⟨none, next, prev⟩, [], []⟩

/-- The loops visit the sequence in order and in reverse, the first element is
the one which is cut, removed elements have no previous link, and legal calls
return. -/
structure Represents (run : PooledListRun size) : Prop where
  iterates : PooledList.iterate run.list = some run.expected
  iteratesBack : PooledList.iterateBack run.list = some run.expected.reverse
  cuts : run.list.cutHead.1 = run.expected.head?
  removed : ∀ index ∈ run.removed, run.list.prev index = none
  returns : ∀ call, run.Legal call → (run.step call).isSome

structure Sound (run : PooledListRun size) : Prop where
  holds : run.list.Holds run.expected
  removed : ∀ index ∈ run.removed, index ∉ run.expected ∧ run.list.prev index = none

variable {run next : PooledListRun size} {list : DList (Fin size)}
  {before after nodes : List (Fin size)} {index : Fin size}

theorem expect_insertAfter (newIndex : Fin size)
    (hnodup : (before ++ index :: after).Nodup) :
    expect (before ++ index :: after) (.insertAfter index newIndex) =
      before ++ index :: newIndex :: after := by
  have hsame : ∀ rest : List (Fin size), index ∉ rest → (rest.flatMap fun other =>
        if other = index then [index, newIndex] else [other]) = rest := by
    intro rest hrest
    induction rest with
    | nil => rfl
    | cons other rest ih =>
      rw [List.mem_cons, not_or] at hrest
      rw [List.flatMap_cons, if_neg (Ne.symm hrest.1), ih hrest.2]
      rfl
  obtain ⟨-, hafter, hbefore⟩ := List.nodup_append.mp hnodup
  rw [expect, List.flatMap_append, List.flatMap_cons, if_pos rfl,
    hsame before fun hmem => hbefore _ hmem _ List.mem_cons_self rfl,
    hsame after (List.nodup_cons.mp hafter).1]
  rfl

theorem Sound.inserted {call : PooledListCall size} (hsound : run.Sound)
    (hcall : run.remember call = run.removed.filter fun other => other ≠ index)
    (hholds : list.Holds (expect run.expected call))
    (hmem : ∀ other ∈ expect run.expected call, other = index ∨ other ∈ run.expected)
    (hprev : ∀ other, other ≠ index → other ∉ run.expected →
      list.prev other = run.list.prev other) :
    Sound ⟨list, expect run.expected call, run.remember call⟩ := by
  refine ⟨hholds, fun other hother => ?_⟩
  rw [hcall, List.mem_filter, decide_eq_true_eq] at hother
  obtain ⟨hout, hnull⟩ := hsound.removed other hother.1
  refine ⟨fun hin => ?_, (hprev other hother.2 hout).trans hnull⟩
  exact (hmem other hin).elim hother.2 hout

theorem Sound.taken {removed : List (Fin size)} (hsound : run.Sound)
    (hholds : list.Holds nodes) (hsub : nodes.Sublist run.expected)
    (hprev : ∀ other ∉ run.expected, list.prev other = run.list.prev other)
    (hremoved : ∀ other ∈ removed, other ∉ nodes ∧ list.prev other = none) :
    Sound ⟨list, nodes, removed ++ run.removed⟩ := by
  refine ⟨hholds, fun other hother => ?_⟩
  rcases List.mem_append.mp hother with hnew | hold
  · exact hremoved other hnew
  · obtain ⟨hout, hnull⟩ := hsound.removed other hold
    exact ⟨fun hin => hout (hsub.mem hin), (hprev other hout).trans hnull⟩

theorem Sound.cutHead (hsound : run.Sound) : Sound ⟨run.list.cutHead.2, run.expected.tail,
      run.expected.head?.toList ++ run.removed⟩ := by
  refine hsound.taken hsound.holds.cutHead.2 (List.tail_sublist _)
    (fun other hout => hsound.holds.cutHead_prev hout) fun head hhead => ?_
  rw [Option.mem_toList] at hhead
  obtain ⟨rest, hexpected⟩ := List.head?_eq_some_iff.mp hhead
  refine ⟨?_, ?_⟩
  · have hnodup := hsound.holds.nodup
    rw [hexpected] at hnodup ⊢
    exact (List.nodup_cons.mp hnodup).1
  · rw [DList.cutHead, hsound.holds.head_eq, hhead]
    exact Function.update_self _ _ _

theorem Sound.removeTail (hsound : run.Sound) :
    ∃ list, run.list.removeTail = some list ∧ Sound ⟨list, run.expected.dropLast,
        run.expected.getLast?.toList ++ run.removed⟩ := by
  have hholds := hsound.holds
  rcases List.eq_nil_or_concat run.expected with hnil | ⟨init, last, hlast⟩
  · have hhead := hholds.head_eq
    rw [hnil] at hhead
    refine ⟨run.list, ?_, ?_⟩
    · rw [DList.removeTail, hhead]
      rfl
    · rw [hnil] at hholds ⊢
      exact ⟨hholds, fun other hother =>
        ⟨List.not_mem_nil, (hsound.removed other hother).2⟩⟩
  · rw [List.concat_eq_append] at hlast
    rw [hlast] at hholds
    obtain ⟨list, hremove, hlist, hnull, hprev⟩ := hholds.removeTail
    refine ⟨list, hremove, ?_⟩
    rw [hlast, List.dropLast_concat, List.getLast?_concat]
    refine hsound.taken hlist (hlast ▸ List.sublist_append_left _ _)
      (fun other hout => hprev other (hlast ▸ hout)) fun other hother => ?_
    obtain rfl := List.mem_singleton.mp hother
    refine ⟨fun hmem => ?_, hnull⟩
    exact (List.nodup_append.mp hholds.nodup).2.2 _ hmem _ List.mem_cons_self rfl

theorem Sound.remove (hsound : run.Sound)
    (hlegal : index ∈ run.expected ∨ index ∈ run.removed) :
    ∃ list, run.list.remove index = some list ∧
      Sound ⟨list, run.expected.erase index, index :: run.removed⟩ := by
  have hholds := hsound.holds
  have hnodup := hholds.nodup
  by_cases hmem : index ∈ run.expected
  · obtain ⟨before, after, hsplit⟩ := List.append_of_mem hmem
    rw [hsplit] at hholds
    obtain ⟨list, hremove, hlist, -⟩ := hholds.remove
    obtain ⟨hnull, hprev⟩ := DList.remove_prev hremove
    have hbefore : index ∉ before := by
      rw [hsplit] at hnodup
      exact fun hin => (List.nodup_append.mp hnodup).2.2 _ hin _ List.mem_cons_self rfl
    rw [← List.erase_cons_head index after,
      ← List.erase_append_right _ hbefore, ← hsplit] at hlist
    refine ⟨list, hremove, ?_⟩
    have hremoved : ∀ other ∈ [index],
        other ∉ run.expected.erase index ∧ list.prev other = none := by
      intro other hother
      obtain rfl := List.mem_singleton.mp hother
      exact ⟨fun hin => (hnodup.mem_erase_iff.mp hin).1 rfl, hnull⟩
    refine hsound.taken hlist List.erase_sublist (fun other hout => ?_) hremoved
    exact hprev other (fun heq => hout (heq ▸ hmem))
      (fun hnext => hout (hsound.holds.mem_of_next hmem hnext))
      fun hhead => hout (hsound.holds.head_mem hhead)
  · obtain ⟨hout, hnull⟩ := hsound.removed index (hlegal.resolve_left hmem)
    refine ⟨run.list, by rw [DList.remove, if_pos hnull], ?_⟩
    rw [List.erase_of_not_mem hout]
    refine ⟨hholds, fun other hother => ?_⟩
    rcases List.mem_cons.mp hother with rfl | hold
    · exact ⟨hout, hnull⟩
    · exact hsound.removed other hold

theorem Sound.exec {call : PooledListCall size} (hsound : run.Sound)
    (hlegal : run.Legal call) :
    ∃ list, call.exec run.list = some list ∧
      Sound ⟨list, expect run.expected call, run.remember call⟩ := by
  have hholds := hsound.holds
  have hhead : ∀ {other}, other ∉ run.expected → run.list.head ≠ some other :=
    fun hout hhead => hout (hholds.head_mem hhead)
  cases call with
  | insertHead index =>
    refine ⟨_, rfl, hsound.inserted rfl (hholds.insertHead hlegal) ?_ ?_⟩
    · exact fun other hother => List.mem_cons.mp hother
    · exact fun other hne hout => DList.insertHead_prev hne (hhead hout)
  | insertTail index =>
    obtain ⟨list, hinsert, hlist, -⟩ := hholds.insertTail hlegal
    refine ⟨list, hinsert, hsound.inserted rfl hlist ?_ ?_⟩
    · intro other hother
      exact (List.mem_append.mp hother).symm.imp_left List.mem_singleton.mp
    · exact fun other hne hout => DList.insertTail_prev hinsert hne (hhead hout)
  | insertAfter index newIndex =>
    obtain ⟨hmem, hnew⟩ := hlegal
    obtain ⟨before, after, hsplit⟩ := List.append_of_mem hmem
    have hexpect := expect_insertAfter newIndex (hsplit ▸ hholds.nodup)
    rw [← hsplit] at hexpect
    rw [hsplit] at hholds
    obtain ⟨list, hinsert, hlist, -⟩ := hholds.insertAfter (hsplit ▸ hnew)
    refine ⟨list, hinsert, hsound.inserted rfl (hexpect ▸ hlist) ?_ ?_⟩
    · intro other hother
      rw [hexpect] at hother
      rw [hsplit]
      simp only [List.mem_append, List.mem_cons] at hother ⊢
      tauto
    · exact fun other hne hout => hsound.holds.insertAfter_prev hmem hnew hinsert hne hout
  | cutHead removed => exact ⟨_, if_pos hlegal, hsound.cutHead⟩
  | removeHead => exact ⟨_, rfl, hsound.cutHead⟩
  | removeTail => exact hsound.removeTail
  | remove index => exact hsound.remove hlegal

theorem Sound.step {call : PooledListCall size} (hsound : run.Sound)
    (hlegal : run.Legal call) :
    ∃ next, run.step call = some next ∧ next.Sound := by
  obtain ⟨list, hexec, hnext⟩ := hsound.exec hlegal
  refine ⟨_, ?_, hnext⟩
  rw [PooledListRun.step, if_pos hlegal, hexec]
  rfl

/-- From `index` back to the first element, by induction on those before it. -/
theorem visits_back {fuel : ℕ} (hholds : list.Holds (before ++ index :: after))
    (hfuel : before.length < fuel) :
    visits (PooledList.back list) fuel (some index) =
      some (before ++ [index]).reverse := by
  induction before using List.reverseRecOn generalizing index after fuel with
  | nil =>
    obtain _ | fuel := fuel
    · exact absurd hfuel (Nat.not_lt_zero _)
    have hprev : list.prev index = (index :: after).getLast? := hholds.back.1
    obtain ⟨init, last, hlast⟩ :=
      (List.eq_nil_or_concat (index :: after)).resolve_left (List.cons_ne_nil _ _)
    rw [List.concat_eq_append] at hlast
    have hnext : list.next last = none := by
      rw [List.nil_append, hlast] at hholds
      exact hholds.next_eq
    rw [hlast, List.getLast?_concat] at hprev
    have hback : PooledList.back list index = some none := by
      simp [PooledList.back, hprev, hnext]
    rw [visits, hback]
    cases fuel <;> rfl
  | append_singleton init prev ih =>
    obtain _ | fuel := fuel
    · exact absurd hfuel (Nat.not_lt_zero _)
    have hprev : list.prev index = some prev := by
      rw [hholds.prev_eq, List.getLast?_concat]
      rfl
    rw [List.append_assoc] at hholds
    have hnext : list.next prev = some index := hholds.next_eq
    have hback : PooledList.back list index = some (some prev) := by
      simp [PooledList.back, hprev, hnext]
    have hinit : init.length < fuel := by
      rw [List.length_append, List.length_singleton] at hfuel
      omega
    have hrest := ih hholds hinit
    rw [visits, hback]
    simp only [Option.bind_eq_bind, Option.bind_some, hrest]
    simp

theorem Sound.iterateBack_eq_iff (hsound : run.Sound) :
    PooledList.iterateBack run.list = some run.expected.reverse ↔
      ∃ head rest, run.expected = head :: rest ∧ head.val ≠ 0 := by
  have hholds := hsound.holds
  have hlength : run.expected.length ≤ size :=
    hholds.nodup.length_le_card.trans_eq (Fintype.card_fin size)
  rw [PooledList.iterateBack, hholds.head_eq]
  cases hexpected : run.expected with
  | nil => simp
  | cons head rest =>
    rw [hexpected] at hholds hlength
    rw [List.head?_cons]
    simp only [Option.bind_eq_bind, Option.bind_some]
    split
    · rename_i hhead
      refine iff_of_true ?_ ⟨head, rest, rfl, hhead⟩
      obtain ⟨init, last, hlast⟩ :=
        (List.eq_nil_or_concat (head :: rest)).resolve_left (List.cons_ne_nil _ _)
      rw [List.concat_eq_append] at hlast
      have hprev := hholds.back.1
      rw [hlast] at hholds hprev hlength ⊢
      rw [hprev, List.getLast?_concat]
      rw [List.length_append, List.length_singleton] at hlength
      exact visits_back hholds hlength
    · rename_i hzero
      refine iff_of_false ?_ ?_
      · cases size <;> simp [visits]
      · rintro ⟨_, _, heq, hne⟩
        obtain ⟨rfl, -⟩ := List.cons.inj heq
        exact hzero hne

theorem Sound.represents_iff_cons (hsound : run.Sound) : run.Represents ↔
      ∃ head rest, run.expected = head :: rest ∧ head.val ≠ 0 := by
  refine ⟨fun hrepresents =>
    hsound.iterateBack_eq_iff.mp hrepresents.iteratesBack, fun hhead => ?_⟩
  have hholds := hsound.holds
  have hlength : run.expected.length ≤ size :=
    hholds.nodup.length_le_card.trans_eq (Fintype.card_fin size)
  refine ⟨visits_next hholds.chain hlength,
    hsound.iterateBack_eq_iff.mpr hhead, hholds.cutHead.1,
    fun index hindex => (hsound.removed index hindex).2, fun call hlegal => ?_⟩
  obtain ⟨next, hstep, -⟩ := hsound.step hlegal
  exact Option.isSome_iff_exists.mpr ⟨next, hstep⟩

theorem sound_of_run {calls : List (PooledListCall size)}
    {links backLinks : Fin size → Option (Fin size)}
    (hrun : TransitionSystem.run step (start links backLinks) calls =
      some run) : run.Sound := by
  have halong : AlongRun step (fun _ _ => True) (start links backLinks) calls :=
    alongRun_of_forall (fun _ _ => trivial) _ _
  have hstart : (start links backLinks).Sound :=
    ⟨⟨rfl, trivial⟩, fun _ hmem => absurd hmem List.not_mem_nil⟩
  refine invariant_of_run (fun state call next hsound _ hstep => ?_) hstart halong hrun
  rw [step] at hstep
  split at hstep
  · rename_i hlegal
    obtain ⟨list, hexec, hnext⟩ := hsound.exec hlegal
    rw [hexec] at hstep
    exact Option.some.inj hstep ▸ hnext
  · contradiction

/-- After every sequence of legal calls the list represents the expected
sequence exactly if this is not empty and does not begin with the index 0. -/
theorem represents_iff (links backLinks : Fin size → Option (Fin size))
    (calls : List (PooledListCall size)) (run : PooledListRun size)
    (hrun : TransitionSystem.run step (start links backLinks) calls = some run) :
    run.Represents ↔ ∃ head rest, run.expected = head :: rest ∧ head.val ≠ 0 :=
  (sound_of_run hrun).represents_iff_cons

theorem represents_iff_behindZero :
    ∃ run, TransitionSystem.run step (start (fun _ => none) fun _ => none)
        [.insertTail (0 : Fin 2), .insertHead 1] = some run ∧
      run.Represents :=
  ⟨_, rfl, (represents_iff _ _ [.insertTail (0 : Fin 2), .insertHead 1] _
    rfl).mpr ⟨1, [0], rfl, by decide⟩⟩

/-- The loop back does not visit the only element, whose index is 0. -/
theorem not_represents_indexZero :
    (TransitionSystem.run step (start (fun _ => none) fun _ => none)
        [.insertTail (0 : Fin 1)]).map (fun run => (PooledList.iterate run.list,
            PooledList.iterateBack run.list)) = some (some [0], some []) ∧
      ¬ ∀ size (links backLinks : Fin size → Option (Fin size)) calls run,
        TransitionSystem.run step (start links backLinks) calls = some run →
          run.Represents := by
  refine ⟨by decide, fun hevery => ?_⟩
  have hback := (hevery 1 (fun _ => none) (fun _ => none)
    [.insertTail (0 : Fin 1)] _ rfl).iteratesBack
  exact absurd hback (by decide)

end PooledListRun

end Zboss
