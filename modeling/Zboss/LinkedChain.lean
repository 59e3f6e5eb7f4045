import Mathlib.Data.List.Nodup

/-!
# Singly linked lists

The links of nodes are a function on nodes. A chain is the list of the nodes
from a head on; stacks and queues with a tail pointer change the links in one or
two places.
-/

namespace LinkedChain

variable {α : Type*}

def Chain (next : α → Option α) : Option α → List α → Prop
  | head, [] => head = none
  | head, x :: rest => head = some x ∧ Chain next (next x) rest

variable {next next' : α → Option α} {head : Option α} {nodes : List α}

theorem Chain.congr (hchain : Chain next head nodes)
    (heq : ∀ x ∈ nodes, next' x = next x) :
    Chain next' head nodes := by
  induction nodes generalizing head with
  | nil => exact hchain
  | cons x rest ih =>
    refine ⟨hchain.1, ?_⟩
    rw [heq x List.mem_cons_self]
    exact ih hchain.2 fun y hy => heq y (List.mem_cons_of_mem x hy)

theorem Chain.unique {other : List α} (hchain : Chain next head nodes)
    (hother : Chain next head other) :
    nodes = other := by
  induction nodes generalizing head other with
  | nil =>
    cases other with
    | nil => rfl
    | cons y rest =>
      rw [Chain] at hchain
      rw [Chain, hchain] at hother
      exact absurd hother.1 (Option.some_ne_none y).symm
  | cons x rest ih =>
    cases other with
    | nil =>
      rw [Chain] at hother
      rw [Chain, hother] at hchain
      exact absurd hchain.1 (Option.some_ne_none x).symm
    | cons y rest' =>
      rw [Chain] at hchain hother
      obtain rfl : x = y := Option.some.inj (hchain.1.symm.trans hother.1)
      rw [ih hchain.2 hother.2]

theorem Chain.drop {before after : List α} {x : α}
    (hchain : Chain next head (before ++ x :: after)) :
    Chain next (some x) (x :: after) := by
  induction before generalizing head with
  | nil => exact ⟨rfl, hchain.2⟩
  | cons y rest ih => exact ih hchain.2

theorem Chain.nodup (hchain : Chain next head nodes) : nodes.Nodup := by
  induction nodes generalizing head with
  | nil => exact List.nodup_nil
  | cons x rest ih =>
    rw [List.nodup_cons]
    refine ⟨?_, ih hchain.2⟩
    intro hmem
    obtain ⟨before, after, rfl⟩ := List.append_of_mem hmem
    -- the chain from the second occurrence is the whole chain
    have hwhole : Chain next (some x) (x :: (before ++ x :: after)) := ⟨rfl, hchain.2⟩
    have hsame := (Chain.drop hchain.2).unique hwhole
    have hlength := congrArg List.length hsame
    simp at hlength
    omega

theorem chain_none : Chain next none nodes ↔ nodes = [] := by
  cases nodes with
  | nil => simp [Chain]
  | cons x rest => simp [Chain]

structure Queue (α : Type*) where
  head : Option α
  tail : Option α

def Queue.empty : Queue α := ⟨none, none⟩

structure Queue.Holds (queue : Queue α) (next : α → Option α) (nodes : List α) : Prop where
  chain : Chain next queue.head nodes
  tail : queue.tail = nodes.getLast?

def Queue.cutHead (queue : Queue α) (next : α → Option α) :
    Option α × Queue α :=
  match queue.head with
  | some x => (some x, ⟨next x, if next x = none then none else queue.tail⟩)
  | none => (none, queue)

theorem Queue.holds_empty (next : α → Option α) : Queue.empty.Holds next [] :=
  ⟨rfl, rfl⟩

theorem Queue.Holds.congr {queue : Queue α} (hholds : queue.Holds next nodes)
    (heq : ∀ x ∈ nodes, next' x = next x) :
    queue.Holds next' nodes :=
  ⟨hholds.chain.congr heq, hholds.tail⟩

theorem Queue.Holds.cutHead {queue : Queue α} (hholds : queue.Holds next nodes) :
    (queue.cutHead next).1 = nodes.head? ∧
      (queue.cutHead next).2.Holds next nodes.tail := by
  obtain ⟨hchain, htail⟩ := hholds
  cases nodes with
  | nil =>
    have hhead : queue.head = none := hchain
    unfold Queue.cutHead
    rw [hhead]
    exact ⟨rfl, hchain, htail⟩
  | cons x rest =>
    obtain ⟨hhead, hrest⟩ := hchain
    unfold Queue.cutHead
    rw [hhead]
    refine ⟨rfl, hrest, ?_⟩
    dsimp only
    cases rest with
    | nil =>
      rw [if_pos (show next x = none from hrest)]
      rfl
    | cons y rest' =>
      rw [hrest.1, if_neg (Option.some_ne_none y), htail]
      rfl

section Update

variable [DecidableEq α]

theorem Chain.update (hchain : Chain next head nodes) {x : α} (hx : x ∉ nodes)
    (link : Option α) :
    Chain (Function.update next x link) head nodes := by
  apply hchain.congr
  intro y hy
  apply Function.update_of_ne
  rintro rfl
  exact hx hy

theorem Chain.push (hchain : Chain next head nodes) {x : α} (hx : x ∉ nodes) :
    Chain (Function.update next x head) (some x) (x :: nodes) := by
  refine ⟨rfl, ?_⟩
  rw [Function.update_self]
  exact hchain.update hx head

def Queue.insertTail (queue : Queue α) (next : α → Option α) (x : α) :
    Queue α × (α → Option α) :=
  let next := Function.update next x none
  match queue.tail with
  | some last => (⟨queue.head, some x⟩, Function.update next last (some x))
  | none => (⟨some x, some x⟩, next)

theorem Chain.append {x last : α} (hchain : Chain next head nodes) (hx : x ∉ nodes)
    (hlast : nodes.getLast? = some last) (hnext : next x = none) :
    Chain (Function.update next last (some x)) head (nodes ++ [x]) := by
  induction nodes generalizing head with
  | nil => simp at hlast
  | cons y rest ih =>
    obtain ⟨hhead, hrest⟩ := hchain
    rw [List.mem_cons, not_or] at hx
    refine ⟨hhead, ?_⟩
    cases rest with
    | nil =>
      obtain rfl : y = last := by simpa using hlast
      rw [Function.update_self]
      refine ⟨rfl, ?_⟩
      rw [Function.update_of_ne hx.1]
      exact hnext
    | cons z rest' =>
      have hmem : last ∈ z :: rest' := by
        apply List.mem_of_getLast?
        simpa using hlast
      have hne : y ≠ last := by
        rintro rfl
        exact (List.nodup_cons.mp (Chain.nodup
          (show Chain next (some y) (y :: z :: rest') from ⟨rfl, hrest⟩))).1 hmem
      rw [Function.update_of_ne hne]
      exact ih hrest hx.2 (by simpa using hlast)

theorem Queue.Holds.insertTail {queue : Queue α} (hholds : queue.Holds next nodes) {x : α}
    (hx : x ∉ nodes) :
    (queue.insertTail next x).1.Holds (queue.insertTail next x).2 (nodes ++ [x]) := by
  have hchain := hholds.chain.update hx none
  unfold Queue.insertTail
  rw [hholds.tail]
  cases hlast : nodes.getLast? with
  | none =>
    obtain rfl := List.getLast?_eq_none_iff.mp hlast
    refine ⟨⟨rfl, ?_⟩, rfl⟩
    exact Function.update_self x none next
  | some last =>
    refine ⟨?_, ?_⟩
    · exact hchain.append hx hlast (Function.update_self _ _ _)
    · rw [List.getLast?_concat]

theorem Queue.Holds.insertTail_of_notMem
    {queue : Queue α} (hholds : queue.Holds next nodes) {x y : α}
    (hyx : y ≠ x) (hy : y ∉ nodes) :
    (queue.insertTail next x).2 y = next y := by
  unfold Queue.insertTail
  rw [hholds.tail]
  cases hlast : nodes.getLast? with
  | none => exact Function.update_of_ne hyx _ _
  | some last =>
    have hne : y ≠ last := by
      rintro rfl
      exact hy (List.mem_of_getLast? hlast)
    dsimp only
    rw [Function.update_of_ne hne, Function.update_of_ne hyx]

end Update

end LinkedChain
