import Zboss.LinkedChain

/-!
# Doubly linked lists without a tail pointer

The previous link of the first node is the last node, so that a pointer to the
first node is enough to append.  The operations change the links as the
assignments through pointers do, one after the other; they return `none` where
a null pointer would be used.
-/

namespace DoublyLinked

open Option List LinkedChain

instance lawful_indices {size : ℕ} : LawfulBEq (Fin size) := inferInstance

variable {α : Type*}

structure DList (α : Type*) where
  head : Option α
  next : α → Option α
  prev : α → Option α

def BackLinks (prev : α → Option α) : Option α → List α → Prop
  | _, [] => True
  | last, x :: rest => prev x = last ∧ BackLinks prev (some x) rest

structure DList.Holds (list : DList α) (nodes : List α) : Prop where
  chain : Chain list.next list.head nodes
  back : BackLinks list.prev nodes.getLast? nodes

def DList.empty : DList α := ⟨none, fun _ => none, fun _ => none⟩

def DList.tail (list : DList α) : Option α :=
  list.head.bind list.prev

def searchFrom (next : α → Option α) (passes : α → Bool) : ℕ → Option α → Option (Option α)
  | 0, _ => none
  | _ + 1, none => some none
  | fuel + 1, some x =>
      if passes x then searchFrom next passes fuel (next x) else some (some x)

def nodesFrom (next : α → Option α) : ℕ → Option α → List α
  | 0, _ => []
  | _ + 1, none => []
  | fuel + 1, some x => x :: nodesFrom next fuel (next x)

variable {list list' : DList α} {prev prev' : α → Option α}
  {last : Option α} {nodes before after : List α} {x : α}

theorem BackLinks.congr (hback : BackLinks prev last nodes)
    (heq : ∀ x ∈ nodes, prev' x = prev x) :
    BackLinks prev' last nodes := by
  induction nodes generalizing last with
  | nil => trivial
  | cons x rest ih =>
    refine ⟨(heq x mem_cons_self).trans hback.1, ?_⟩
    exact ih hback.2 fun y hy => heq y (mem_cons_of_mem x hy)

theorem backLinks_append : BackLinks prev last (before ++ after) ↔
      BackLinks prev last before ∧
        BackLinks prev (before.getLast?.or last) after := by
  induction before generalizing last with
  | nil => simp [BackLinks]
  | cons x rest ih =>
    rw [cons_append, BackLinks, ih, BackLinks, and_assoc]
    have hlast : (x :: rest).getLast?.or last = rest.getLast?.or (some x) := by
      cases hrest : rest.getLast? with
      | none => simp [List.getLast?_cons, hrest]
      | some y => simp [List.getLast?_cons, hrest]
    rw [hlast]

theorem DList.Holds.nodup (hholds : list.Holds nodes) : nodes.Nodup :=
  hholds.chain.nodup

theorem DList.Holds.head_eq (hholds : list.Holds nodes) : list.head = nodes.head? := by
  cases nodes with
  | nil => exact hholds.chain
  | cons x rest => exact hholds.chain.1

theorem DList.Holds.tail_eq (hholds : list.Holds nodes) : list.tail = nodes.getLast? := by
  rw [DList.tail, hholds.head_eq]
  cases nodes with
  | nil => rfl
  | cons x rest => exact hholds.back.1

theorem DList.Holds.next_eq (hholds : list.Holds (before ++ x :: after)) :
    list.next x = after.head? := by
  have hrest := hholds.chain.drop.2
  cases after with
  | nil => exact hrest
  | cons y rest => exact hrest.1

theorem DList.Holds.prev_eq (hholds : list.Holds (before ++ x :: after)) :
    list.prev x = before.getLast?.or (x :: after).getLast? := by
  have hx := (backLinks_append.mp hholds.back).2.1
  rw [hx]
  cases before.getLast? with
  | some y => rfl
  | none => simp [List.getLast?_cons]

theorem searchFrom_of_chain {next : α → Option α} {start : Option α} {fuel : ℕ}
    (passes : α → Bool) (hchain : Chain next start nodes)
    (hfuel : nodes.length < fuel) :
    searchFrom next passes fuel start =
      some (nodes.dropWhile passes).head? := by
  induction nodes generalizing start fuel with
  | nil =>
    obtain ⟨n, rfl⟩ := Nat.exists_eq_add_of_lt hfuel
    rw [show start = none from hchain]
    simp [searchFrom]
  | cons x rest ih =>
    cases fuel with
    | zero => exact absurd hfuel (Nat.not_lt_zero _)
    | succ fuel =>
      obtain ⟨hstart, hrest⟩ := hchain
      rw [hstart, searchFrom, dropWhile_cons]
      cases passes x with
      | true => exact ih hrest (Nat.lt_of_succ_lt_succ hfuel)
      | false => rfl

theorem getLast?_append_cons (before : List α) (x : α) (after : List α) :
    (before ++ x :: after).getLast? = (x :: after).getLast? := by
  rw [List.getLast?_append_of_ne_nil _ (cons_ne_nil _ _)]

theorem nodesFrom_of_chain {next : α → Option α} {start : Option α} {fuel : ℕ}
    (hchain : Chain next start nodes) (hfuel : nodes.length ≤ fuel) :
    nodesFrom next fuel start = nodes := by
  induction nodes generalizing start fuel with
  | nil =>
    rw [show start = none from hchain]
    cases fuel <;> rfl
  | cons x rest ih =>
    cases fuel with
    | zero => exact absurd hfuel (Nat.not_succ_le_zero _)
    | succ fuel => rw [hchain.1, nodesFrom, ih hchain.2 (Nat.le_of_succ_le_succ hfuel)]

section Update

variable [DecidableEq α]

theorem BackLinks.update
    (hback : BackLinks prev last nodes) (hx : x ∉ nodes) (link : Option α) :
    BackLinks (Function.update prev x link) last nodes := by
  apply hback.congr
  intro y hy
  apply Function.update_of_ne
  rintro rfl
  exact hx hy

def DList.insertHead (list : DList α) (x : α) : DList α :=
  let next := Function.update list.next x list.head
  match list.head with
  | some head =>
      { head := some x
        next := next
        prev :=
          Function.update (Function.update list.prev x (list.prev head)) head (some x) }
  | none => ⟨some x, next, Function.update list.prev x (some x)⟩

def DList.insertTail (list : DList α) (x : α) : Option (DList α) :=
  let next := Function.update list.next x none
  match list.head with
  | some head => do
      let prev := Function.update list.prev x (list.prev head)
      let last ← prev head
      some
        { head := some head
          next := Function.update next last (some x)
          prev := Function.update prev head (some x) }
  | none => some ⟨some x, next, Function.update list.prev x (some x)⟩

def DList.insertAfter (list : DList α) (ent x : α) : Option (DList α) :=
  if list.tail = some ent then list.insertTail x
  else do
    let next := Function.update list.next x (list.next ent)
    let prev := Function.update list.prev x (some ent)
    let following ← next ent
    some
      { head := list.head
        next := Function.update next ent (some x)
        prev := Function.update prev following (some x) }

def DList.cutHead (list : DList α) : Option α × DList α :=
  match list.head with
  | some head =>
      let prev :=
        match list.next head with
        | some following => Function.update list.prev following (list.prev head)
        | none => list.prev
      (some head, ⟨list.next head, list.next, Function.update prev head none⟩)
  | none => (none, list)

def DList.remove (list : DList α) (x : α) : Option (DList α) :=
  if list.prev x = none then some list
  else do
    let prev ←
      match list.next x with
      | some following => some (Function.update list.prev following (list.prev x))
      | none => do
          let head ← list.head
          some (Function.update list.prev head (list.prev x))
    if list.head = some x then some ⟨list.next x, list.next, Function.update prev x none⟩
    else do
      let preceding ← prev x
      some
        { head := list.head
          next := Function.update list.next preceding (list.next x)
          prev := Function.update prev x none }

theorem DList.insertHead_next (list : DList α) (x : α) :
    (list.insertHead x).next = Function.update list.next x list.head := by
  unfold DList.insertHead
  split <;> rfl

theorem DList.Holds.insertHead (hholds : list.Holds nodes) (hx : x ∉ nodes) :
    (list.insertHead x).Holds (x :: nodes) := by
  have hchain := hholds.chain.push hx
  unfold DList.insertHead
  cases nodes with
  | nil =>
    rw [hholds.head_eq] at hchain ⊢
    exact ⟨hchain, Function.update_self _ _ _, trivial⟩
  | cons head rest =>
    rw [hholds.head_eq] at hchain ⊢
    have hback := hholds.back
    rw [mem_cons, not_or] at hx
    have hhead := (nodup_cons.mp hholds.nodup).1
    refine ⟨hchain, ?_, ?_, ?_⟩
    · dsimp only [List.head?_cons]
      rw [Function.update_of_ne hx.1, Function.update_self, hback.1]
      simp [List.getLast?_cons]
    · exact Function.update_self _ _ _
    · exact (hback.2.update hx.2 _).update hhead _

theorem DList.Holds.insertTail (hholds : list.Holds nodes) (hx : x ∉ nodes) :
    ∃ list', list.insertTail x = some list' ∧ list'.Holds (nodes ++ [x]) ∧
        ∀ y, y ≠ x → y ∉ nodes → list'.next y = list.next y := by
  have hchain := hholds.chain.update hx none
  unfold DList.insertTail
  cases nodes with
  | nil =>
    rw [hholds.head_eq]
    refine ⟨_, rfl, ⟨⟨rfl, Function.update_self _ _ _⟩, ?_, trivial⟩, ?_⟩
    · exact Function.update_self _ _ _
    · intro y hy _
      exact Function.update_of_ne hy _ _
  | cons head rest =>
    have hback := hholds.back
    have hhead := (nodup_cons.mp hholds.nodup).1
    have hlast : (head :: rest).getLast? = some ((head :: rest).getLast (by simp)) :=
      List.getLast?_eq_some_getLast _
    have hne := mem_cons.not.mp hx
    rw [not_or] at hne
    rw [hholds.head_eq] at hchain ⊢
    dsimp only [List.head?_cons]
    rw [Function.update_of_ne (Ne.symm hne.1), hback.1, hlast]
    refine ⟨_, rfl, ⟨?_, ?_⟩, ?_⟩
    · exact hchain.append hx hlast (Function.update_self _ _ _)
    · rw [List.getLast?_concat, cons_append]
      refine ⟨Function.update_self _ _ _, ?_⟩
      rw [backLinks_append]
      refine ⟨(hback.2.update hne.2 _).update hhead _, ?_, trivial⟩
      dsimp only
      rw [Function.update_of_ne hne.1, Function.update_self, ← hlast]
      cases hrest : rest.getLast? with
      | none => simp [List.getLast?_cons, hrest]
      | some y => simp [List.getLast?_cons, hrest]
    · intro y hy hmem
      have hylast : y ≠ (head :: rest).getLast (by simp) := by
        rintro rfl
        exact hmem (mem_of_getLast? hlast)
      dsimp only
      rw [Function.update_of_ne hylast, Function.update_of_ne hy]

theorem chain_insertAfter {next : α → Option α} {head : Option α} {ent : α}
    (hchain : Chain next head (before ++ ent :: after))
    (hx : x ∉ before ++ ent :: after) :
    Chain (Function.update (Function.update next x (next ent)) ent (some x)) head
      (before ++ ent :: x :: after) := by
  have hnodup := hchain.nodup
  induction before generalizing head with
  | nil =>
    obtain ⟨hhead, hafter⟩ := hchain
    rw [nil_append, mem_cons, not_or] at hx
    have hent := (nodup_cons.mp hnodup).1
    refine ⟨hhead, Function.update_self _ _ _, ?_⟩
    rw [Function.update_of_ne hx.1, Function.update_self]
    exact (hafter.update hx.2 _).update hent _
  | cons y rest ih =>
    obtain ⟨hhead, hrest⟩ := hchain
    rw [cons_append, mem_cons, not_or] at hx
    have hy : y ≠ ent := by
      rintro rfl
      exact (nodup_cons.mp hnodup).1 (by simp)
    refine ⟨hhead, ?_⟩
    rw [Function.update_of_ne hy, Function.update_of_ne (Ne.symm hx.1)]
    exact ih hrest hx.2 (nodup_cons.mp hnodup).2

theorem chain_unlink {next : α → Option α} {head : Option α} {preceding : α}
    (hchain : Chain next head (before ++ preceding :: x :: after)) :
    Chain (Function.update next preceding (next x)) head
      (before ++ preceding :: after) := by
  have hnodup := hchain.nodup
  induction before generalizing head with
  | nil =>
    obtain ⟨hhead, _, hafter⟩ := hchain
    have hpreceding := (nodup_cons.mp hnodup).1
    rw [mem_cons, not_or] at hpreceding
    refine ⟨hhead, ?_⟩
    rw [Function.update_self]
    exact hafter.update hpreceding.2 _
  | cons y rest ih =>
    obtain ⟨hhead, hrest⟩ := hchain
    have hy : y ≠ preceding := by
      rintro rfl
      exact (nodup_cons.mp hnodup).1 (by simp)
    refine ⟨hhead, ?_⟩
    rw [Function.update_of_ne hy]
    exact ih hrest (nodup_cons.mp hnodup).2

theorem DList.Holds.insertAfter {ent : α} (hholds : list.Holds (before ++ ent :: after))
    (hx : x ∉ before ++ ent :: after) :
    ∃ list', list.insertAfter ent x = some list' ∧
      list'.Holds (before ++ ent :: x :: after) ∧
        ∀ y, y ≠ x → y ∉ before ++ ent :: after → list'.next y = list.next y := by
  have hnodup := hholds.nodup
  unfold DList.insertAfter
  rw [hholds.tail_eq, getLast?_append_cons]
  cases after with
  | nil =>
    rw [if_pos (by rfl)]
    obtain ⟨list', hinsert, hholds', hothers⟩ := hholds.insertTail hx
    refine ⟨list', hinsert, ?_, hothers⟩
    rw [append_assoc] at hholds'
    exact hholds'
  | cons following rest =>
    have hsplit := (nodup_append.mp hnodup).2.1
    rw [nodup_cons] at hsplit
    have hlast : (ent :: following :: rest).getLast? = (following :: rest).getLast? :=
      List.getLast?_cons_cons
    have hnottail : (ent :: following :: rest).getLast? ≠ some ent := by
      rw [hlast]
      intro heq
      exact hsplit.1 (mem_of_getLast? heq)
    rw [if_neg hnottail]
    simp only [mem_append, mem_cons, not_or] at hx
    have hnext : Function.update list.next x (list.next ent) ent =
        some following := by
      rw [Function.update_of_ne (Ne.symm hx.2.1), hholds.next_eq]
      rfl
    dsimp only
    rw [hnext]
    refine ⟨_, rfl, ⟨?_, ?_⟩, ?_⟩
    · apply chain_insertAfter hholds.chain
      simpa using hx
    · have hback := hholds.back
      rw [backLinks_append] at hback ⊢
      obtain ⟨hbefore, hent, -, hrest⟩ := hback
      have hfollowing : following ∉ before := by
        intro hmem
        exact (nodup_append.mp hnodup).2.2 following hmem following (by simp) rfl
      rw [getLast?_append_cons, hlast] at hbefore hent
      rw [getLast?_append_cons, List.getLast?_cons_cons, List.getLast?_cons_cons]
      refine ⟨(hbefore.update hx.1 _).update hfollowing _, ?_, ?_, ?_, ?_⟩
      · dsimp only
        rw [Function.update_of_ne, Function.update_of_ne (Ne.symm hx.2.1)]
        · exact hent
        · rintro rfl
          exact hsplit.1 mem_cons_self
      · dsimp only
        rw [Function.update_of_ne hx.2.2.1, Function.update_self]
      · exact Function.update_self _ _ _
      · exact (hrest.update hx.2.2.2 _).update (nodup_cons.mp hsplit.2).1 _
    · intro y hy hmem
      have hyent : y ≠ ent := by
        rintro rfl
        exact hmem (by simp)
      dsimp only
      rw [Function.update_of_ne hyent, Function.update_of_ne hy]

theorem DList.cutHead_next (list : DList α) : list.cutHead.2.next = list.next := by
  unfold DList.cutHead
  split <;> rfl

theorem DList.Holds.cutHead (hholds : list.Holds nodes) :
    list.cutHead.1 = nodes.head? ∧ list.cutHead.2.Holds nodes.tail := by
  unfold DList.cutHead
  rw [hholds.head_eq]
  cases nodes with
  | nil => exact ⟨rfl, hholds⟩
  | cons head rest =>
    refine ⟨rfl, hholds.chain.2, ?_⟩
    have hnodup := nodup_cons.mp hholds.nodup
    have hfirst : list.Holds ([] ++ head :: rest) := hholds
    have hnext : list.next head = rest.head? := hfirst.next_eq
    have hprev : list.prev head = (head :: rest).getLast? := hholds.back.1
    dsimp only [List.head?_cons, tail_cons]
    rw [hnext]
    cases rest with
    | nil => trivial
    | cons following rest' =>
      have hfollowing := nodup_cons.mp hnodup.2
      refine ⟨?_, ?_⟩
      · rw [Function.update_of_ne, List.head?_cons]
        · dsimp only
          rw [Function.update_self, hprev]
          exact List.getLast?_cons_cons
        · rintro rfl
          exact hnodup.1 mem_cons_self
      · apply BackLinks.update _ (fun hmem =>
          hnodup.1 (mem_cons_of_mem _ hmem))
        exact hholds.back.2.2.update hfollowing.1 _

theorem BackLinks.updateFirst (hback : BackLinks prev last (x :: nodes)) (hx : x ∉ nodes)
    (link : Option α) :
    BackLinks (Function.update prev x link) link (x :: nodes) :=
  ⟨Function.update_self _ _ _, hback.2.update hx link⟩

theorem DList.Holds.remove_head (hholds : list.Holds (x :: after)) :
    list.remove x = some list.cutHead.2 := by
  have hhead := hholds.head_eq
  have hfirst : list.Holds ([] ++ x :: after) := hholds
  have hnext : list.next x = after.head? := hfirst.next_eq
  have hprev : list.prev x ≠ none := by
    rw [hholds.back.1]
    simp [List.getLast?_cons]
  unfold DList.remove DList.cutHead
  rw [if_neg hprev, hhead]
  dsimp only [List.head?_cons]
  rw [hnext]
  cases after with
  | nil => simp
  | cons following rest => simp

theorem DList.Holds.remove (hholds : list.Holds (before ++ x :: after)) :
    ∃ list', list.remove x = some list' ∧ list'.Holds (before ++ after) ∧
        ∀ y, y ∉ before → list'.next y = list.next y := by
  rcases eq_nil_or_concat before with rfl | ⟨start, preceding, hconcat⟩
  · exact ⟨_, hholds.remove_head, hholds.cutHead.2,
      fun y _ => congrFun list.cutHead_next y⟩
  rw [concat_eq_append] at hconcat
  subst hconcat
  have hnext := hholds.next_eq
  have hprev : list.prev x = some preceding := by
    rw [hholds.prev_eq, List.getLast?_concat]
    rfl
  have hchain := hholds.chain
  rw [append_assoc] at hchain
  have hunlink := chain_unlink hchain
  rw [← singleton_append, ← append_assoc] at hunlink
  obtain ⟨hbefore, -, hafter⟩ := backLinks_append.mp hholds.back
  obtain ⟨hnodup, hxafter, hdisjoint⟩ := nodup_append.mp hholds.nodup
  rw [nodup_cons] at hxafter
  have hx : x ∉ start ++ [preceding] := fun hmem => hdisjoint x hmem x mem_cons_self rfl
  cases hstart : start ++ [preceding] with
  | nil => simp at hstart
  | cons head rest =>
    rw [hstart] at hbefore hnodup hx hdisjoint hunlink
    have hlast : (head :: rest).getLast? = some preceding := by
      rw [← hstart, List.getLast?_concat]
    have hhead : list.head = some head := by
      rw [hholds.head_eq, hstart]
      rfl
    have hne : x ≠ head := fun heq => hx (heq ▸ mem_cons_self)
    have hnothead : some head ≠ some x := fun heq => hne (some.inj heq).symm
    have hothers : ∀ y, y ∉ head :: rest →
        Function.update list.next preceding (list.next x) y = list.next y := by
      intro y hy
      apply Function.update_of_ne
      rintro rfl
      exact hy (mem_of_getLast? hlast)
    rw [hnext, hhead] at hunlink
    rw [hnext] at hothers
    unfold DList.remove
    rw [hprev, if_neg (some_ne_none _), hnext, hhead]
    cases after with
    | nil =>
      dsimp only [List.head?_nil, bind_eq_bind, bind_some]
      rw [if_neg hnothead, Function.update_of_ne hne, hprev]
      refine ⟨_, rfl, ⟨hunlink, ?_⟩, hothers⟩
      rw [append_nil, hlast]
      apply BackLinks.update _ hx
      exact hbefore.updateFirst (nodup_cons.mp hnodup).1 _
    | cons following rest' =>
      have hxne : x ≠ following := fun heq => hxafter.1 (heq ▸ mem_cons_self)
      have hfollowing : following ∉ head :: rest := fun hmem =>
        hdisjoint following hmem following (by simp) rfl
      dsimp only [List.head?_cons, bind_eq_bind, bind_some]
      rw [if_neg hnothead, Function.update_of_ne hxne, hprev]
      refine ⟨_, rfl, ⟨hunlink, ?_⟩, hothers⟩
      rw [backLinks_append, hlast]
      rw [getLast?_append_cons, List.getLast?_cons_cons] at hbefore
      rw [getLast?_append_cons]
      refine ⟨(hbefore.update hfollowing _).update hx _, ?_, ?_⟩
      · dsimp only
        rw [Function.update_of_ne (Ne.symm hxne), Function.update_self]
        rfl
      · apply BackLinks.update _ (fun hmem =>
          hxafter.1 (mem_cons_of_mem _ hmem))
        exact hafter.2.update (nodup_cons.mp hxafter.2).1 _

end Update

end DoublyLinked
